import Werewolf.Control.Chains
import Werewolf.State.ValidationProperties

/-! The commands on the Pack, the target policy, the profiles and Fangs and the
operator's own files go through transitions. A candidate of theirs is sound if
the live state is. -/

namespace Werewolf.Control
open Library Procedure Governance Policy
open State hiding name
open Storage hiding name

variable {permit : Liberty → Prop} {host : Host} {environment : Environment} {system : System}

section Candidates

variable {external : External} {state : ProtectedState} {peer : PeerRecord}

theorem excludes_congr {head : Head} {other : PeerRecord} (same : peer.publicKeyB64 = other.publicKeyB64) :
    excludes external head peer = excludes external head other := by
  simp only [excludes, same]

theorem Sound.of_keys {peers : List PeerRecord} (valid : State.pack external peers = true)
    (known : ∀ peer ∈ peers, ∃ member ∈ state.peers, peer.publicKeyB64 = member.publicKeyB64)
    (sound : Sound external state) : Sound external { state with peers := peers } where
  policy := sound.policy
  pack := valid
  members head governed peer found := by
    obtain ⟨member, before, same⟩ := known peer found
    exact (excludes_congr same).trans (sound.members head governed member before)

private theorem publicKey_of_peerValid {text : String} (valid : peerValid external peer = true)
    (stores : peer.publicKeyB64 = some text) :
    ∃ key, publicKey external text = some key := by
  obtain ⟨key, read, _⟩ := (peerValid_some valid).2 text stores
  exact ⟨key, by simp [publicKey, (key_iff.mp read).1, key.2]⟩

theorem excludes_added {head : Head} {text : String} (valid : peerValid external peer = true)
    (stores : peer.publicKeyB64 = some text)
    (trusted : revokedByNetwork (some head) (publicKey external text) = false)
    (listed : offRoster (some head) (publicKey external text) = false) :
    excludes external head peer = false := by
  obtain ⟨key, decoded⟩ := publicKey_of_peerValid valid stores
  simp only [revokedByNetwork, offRoster, decoded] at trusted listed
  simp [excludes, stores, decoded, trusted, listed]

theorem Sound.add {text : String} (stores : peer.publicKeyB64 = some text)
    (valid : State.pack external (state.peers ++ [peer]) = true)
    (trusted : revokedByNetwork state.governance (publicKey external text) = false)
    (listed : offRoster state.governance (publicKey external text) = false) (sound : Sound external state) :
    Sound external { state with peers := state.peers ++ [peer] } where
  policy := sound.policy
  pack := valid
  members head governed member found := by
    rcases List.mem_append.mp found with before | new
    · exact sound.members head governed member before
    · cases List.mem_singleton.mp new
      obtain ⟨_, each, _⟩ := (pack_iff external _).mp valid
      have governed : state.governance = some head := governed
      rw [governed] at trusted listed
      exact excludes_added (each peer found) stores trusted listed

theorem changeAddress_keys {name address : String} {peers changed : List PeerRecord} {differs : Bool}
    (found : changeAddress name address peers = some (differs, changed)) :
    ∀ peer ∈ changed, ∃ member ∈ peers, peer.publicKeyB64 = member.publicKeyB64 := by
  induction peers generalizing changed differs with
  | nil => cases found
  | cons first rest ih =>
    unfold changeAddress at found
    split at found
    · cases found
      intro peer member
      rcases List.mem_cons.mp member with rfl | member
      · exact ⟨first, List.mem_cons_self, rfl⟩
      · exact ⟨peer, List.mem_cons_of_mem _ member, rfl⟩
    · obtain ⟨⟨_, later⟩, foundLater, same⟩ := Option.map_eq_some_iff.mp found
      cases same
      intro peer member
      rcases List.mem_cons.mp member with rfl | member
      · exact ⟨peer, List.mem_cons_self, rfl⟩
      · obtain ⟨other, before, same⟩ := ih foundLater peer member
        exact ⟨other, List.mem_cons_of_mem _ before, same⟩

theorem Sound.withPolicy {policy : TargetPolicy} (wellFormed : policy.WellFormed)
    (sound : Sound external state) : Sound external { state with targetPolicy := policy } :=
  ⟨wellFormed, sound.pack, sound.members⟩

theorem allowed_wellFormed (faithful : host.Faithful) {target fingerprint : String} {endpoint : SocketAddr}
    {policy next : TargetPolicy} (read : host.parseSocketAddr target = some endpoint) (wellFormed : policy.WellFormed)
    (allowed : allowExact policy fingerprint endpoint = some next) : next.WellFormed := by
  refine allowExact_wellFormed wellFormed ?_ allowed
  cases endpoint with
  | v4 => rfl
  | v6 ip port flowinfo scopeId =>
    have flow := faithful.socketFlow target ip port flowinfo scopeId read
    simp only [allowExact, Option.ite_none_left_eq_some, Bool.or_eq_true, Bool.not_eq_true',
      not_or, Bool.not_eq_false, supportedEndpoint, Bool.and_eq_true, decide_eq_true_eq] at allowed
    obtain ⟨⟨_, _, scope, _⟩, _⟩ := allowed
    rw [flow, scope]
    rfl

end Candidates

section Pack

variable (fares : environment.Fares permit) (alive : system.node.dying = false)
  (recommits : permit .recommits)

include fares alive recommits

theorem replacePack_follows {candidate : List PeerRecord}
    (sound : Sound host.toExternal (protectedFromLive system.node) →
      Sound host.toExternal { protectedFromLive system.node with peers := candidate })
    (name : String) (revoked : Option String) :
    Traces (Transition permit host) system (replacePack host environment name candidate revoked) := by
  refine follows_bind (follows_forM (fun peer _ settled => deny_follows name peer settled) _ system (.refl system)) ?_
  rintro _ _ ⟨node, rfl, calm⟩
  have living : node.dying = false := calm.dying.trans alive
  have publication : Publication permit host { system with node := node }
      { protectedFromLive node with peers := candidate }
      (fun node => { node with peers := candidate }) :=
    .of_records living recommits rfl rfl (fun _ => ⟨rfl, rfl, rfl, rfl, rfl, rfl⟩)
      (fun _ => ⟨rfl, rfl, rfl⟩) (fun _ => by rw [calm.protectedFromLive]; exact sound)
  refine follows_live (follows_bind (follows_persist fares publication living rfl
    (show packFile ∈ flatFiles by decide)) ?_)
  intro saved next _
  refine follows_check (fun _ => ?_)
  refine follows_bind (follows_forM (fun peer _ settled => publishRemoval_follows peer settled) _
    next (.refl next)) (fun _ later settled => ?_)
  exact (follows_forM (fun peer _ settled => cleanup_follows peer settled) _ later settled).imp (fun _ _ _ => trivial)

theorem packAdd_follows (name fingerprint address publicKeyB64 : String) : Traces (Transition permit host) system
      (packAdd host environment name fingerprint address publicKeyB64) := by
  refine follows_check (fun _ => follows_live (follows_check (fun trusted =>
    follows_check (fun listed => follows_check (fun valid => ?_)))))
  simp only [Bool.not_eq_true'] at trusted listed
  exact follows_bind (replacePack_follows fares alive recommits
    (Sound.add rfl valid trusted listed) name none) (fun _ _ _ => follows_pure trivial)

theorem takeOut_follows (name : String) (status : Status) :
    Traces (Transition permit host) system (takeOut host environment name status) := by
  refine follows_live (follows_check (fun _ => follows_check (fun valid => ?_)))
  refine follows_bind (replacePack_follows fares alive recommits (Sound.of_keys valid ?_) name _)
    (fun _ _ _ => follows_pure trivial)
  exact fun peer member => ⟨peer, List.mem_of_mem_filter member, rfl⟩

omit fares alive recommits in
theorem giveUp_follows (candidateActive affected : List String) :
    Traces (Transition permit host) system (giveUp candidateActive affected) := by
  refine follows_update ?_ trivial
  by_cases degraded : system.node.storageDegraded = true
  · rw [if_pos degraded]
    exact .moves (.of_same rfl rfl rfl rfl rfl id) ⟨rfl, rfl, rfl, rfl, rfl⟩ .inl
  · rw [if_neg degraded]
    exact transition_calm (.refl _)

omit alive recommits in
theorem saveAddressFlat_follows (flat : system.node.generation = none)
    (candidatePeers : List PeerRecord) (candidateActive affected old : List String) :
    Traces (Transition permit host) system
      (saveAddressFlat host environment candidatePeers candidateActive affected old) := by
  have activeFlat : activeFangsFile ∈ flatFiles := by decide
  have narrows : Follows (Transition permit host) system (saveNarrowed host environment candidateActive old)
      (fun _ next => next.node.generation = none) := by
    unfold saveNarrowed
    split
    · exact follows_pure flat
    · exact follows_store_flat (fares.documents _) flat ⟨rfl, rfl, rfl, rfl, rfl, flat⟩ rfl activeFlat
  refine follows_bind narrows (fun narrowed next flat => ?_)
  cases narrowed with
  | false => exact follows_pure trivial
  | true =>
    refine follows_bind (follows_store_flat (fares.documents _) flat ⟨rfl, rfl, rfl, rfl, rfl, flat⟩ rfl
      (show packFile ∈ flatFiles by decide)) (fun saved later flat => follows_live ?_)
    split
    · exact follows_pure trivial
    · refine follows_bind (follows_store_flat (fares.documents _) flat ⟨rfl, rfl, rfl, rfl, rfl, flat⟩
        rfl activeFlat) (fun restored last _ => ?_)
      split
      · exact follows_pure trivial
      · exact follows_alter_bind (.single (transition_degrade last)) (follows_pure trivial)

theorem saveAddress_follows {candidatePeers : List PeerRecord}
    (sound : Sound host.toExternal (protectedFromLive system.node) →
      Sound host.toExternal { protectedFromLive system.node with peers := candidatePeers })
    (candidateActive affected : List String) :
    Traces (Transition permit host) system
      (saveAddress host environment system.node candidatePeers candidateActive affected) := by
  unfold saveAddress
  cases selected : system.node.generation with
  | none => exact saveAddressFlat_follows fares selected _ _ _ _
  | some generation =>
    have publication : Publication permit host system { protectedFromLive system.node with
          peers := candidatePeers, activeProfiles := candidateActive }
        (fun node => publishInvalidatedRuntime candidateActive affected { node with peers := candidatePeers }) :=
      .of_records alive recommits rfl rfl (fun _ => ⟨rfl, rfl, rfl, rfl, rfl, rfl⟩) (fun _ => ⟨rfl, rfl, rfl⟩)
        (fun _ live => ⟨(sound live).policy, (sound live).pack, (sound live).members⟩)
    exact follows_alter (.single (transition_commit publication alive selected fares.protectedState)) trivial

theorem packSetAddress_follows (name address : String) :
    Traces (Transition permit host) system (packSetAddress host environment name address) := by
  refine follows_live (follows_expect (fun changed found =>
    follows_check (fun valid => ?_)))
  have changes : Traces (Transition permit host) system
      (applyPackAddressChange host environment name changed.2 changed.1) := by
    refine follows_live (follows_check (fun _ => follows_bind
      (saveAddress_follows fares alive recommits (Sound.of_keys valid (changeAddress_keys found)) _ _)
      (fun saved next _ => ?_)))
    cases saved with
    | true => exact follows_pure trivial
    | false => exact follows_bind (giveUp_follows _ _) (fun _ _ _ => follows_throw)
  exact follows_bind changes (fun _ _ _ => follows_pure trivial)

end Pack

section Target

variable (fares : environment.Fares permit) (alive : system.node.dying = false)
  (recommits : permit .recommits)

include fares alive recommits

theorem persistPolicy_follows {parsed : TargetPolicy}
    (wellFormed : host.Faithful → system.node.targetPolicy.WellFormed → parsed.WellFormed) (status : Status) :
    Traces (Transition permit host) system (persistPolicy host environment parsed status) := by
  refine follows_expect (fun canonical _ => follows_live (follows_saved ?_))
  have publication : Publication permit host system { protectedFromLive system.node with targetPolicy := parsed }
      (fun node => { node with targetPolicy := parsed }) :=
    .of_records alive recommits rfl rfl (fun _ => ⟨rfl, rfl, rfl, rfl, rfl, rfl⟩) (fun _ => ⟨rfl, rfl, rfl⟩)
      (fun faithful sound => sound.withPolicy (wellFormed faithful sound.policy))
  exact follows_persist fares publication alive rfl (show targetPolicyFile ∈ flatFiles by decide)

theorem targetPolicySet_follows (document : String) :
    Traces (Transition permit host) system (targetPolicySet host environment document) := by
  refine follows_expect (fun parsed read => persistPolicy_follows fares alive recommits ?_ _)
  obtain ⟨canonical, _, parse⟩ := Option.bind_eq_some_iff.mp read
  exact fun _ _ => (canonicalFromRuntime_of_parseCanonical parse).2

theorem changeGrant_follows {change : TargetPolicy → String → SocketAddr → Option TargetPolicy} {target : String}
    (keeps : host.Faithful → ∀ {policy next fingerprint endpoint},
      host.parseSocketAddr target = some endpoint → policy.WellFormed →
      change policy fingerprint endpoint = some next → next.WellFormed)
    (refusal : Code) (status : Status) (peer : String) :
    Traces (Transition permit host) system (changeGrant host environment change refusal status peer target) := by
  refine follows_expect (fun endpoint read => follows_live (follows_expect
    (fun record _ => follows_expect (fun parsed changed =>
      persistPolicy_follows fares alive recommits ?_ _))))
  exact fun faithful wellFormed => keeps faithful read wellFormed changed

theorem targetAllow_follows (peer target : String) :
    Traces (Transition permit host) system (targetAllow host environment peer target) :=
  changeGrant_follows fares alive recommits (fun faithful _ _ _ _ read wellFormed allowed =>
      allowed_wellFormed faithful read wellFormed allowed) _ _ _

theorem targetRemove_follows (peer target : String) :
    Traces (Transition permit host) system (targetRemove host environment peer target) :=
  changeGrant_follows fares alive recommits
    (fun _ _ _ _ _ _ wellFormed removed => removeExact_wellFormed wellFormed removed) _ _ _

end Target

section Profiles

variable (fares : environment.Fares permit) (alive : system.node.dying = false)
  (recommits : permit .recommits)

include fares alive recommits

theorem persistProfiles_follows (candidate : List FangProfile) (status : Status) :
    Traces (Transition permit host) system (persistProfiles host environment candidate status) := by
  refine follows_check (fun _ => follows_live (follows_saved ?_))
  have publication : Publication permit host system { protectedFromLive system.node with fangProfiles := candidate }
      (fun node => { node with fangProfiles := candidate }) :=
    .of_records alive recommits rfl rfl (fun _ => ⟨rfl, rfl, rfl, rfl, rfl, rfl⟩)
      (fun _ => ⟨rfl, rfl, rfl⟩) (fun _ sound => ⟨sound.policy, sound.pack, sound.members⟩)
  exact follows_persist fares publication alive rfl (show fangsFile ∈ flatFiles by decide)

theorem fangProfileAdd_follows (profile : FangProfile) :
    Traces (Transition permit host) system (fangProfileAdd host environment profile) :=
  follows_live (follows_check (fun _ => persistProfiles_follows fares alive recommits _ _))

theorem fangProfileRemove_follows (name : String) :
    Traces (Transition permit host) system (fangProfileRemove host environment name) :=
  follows_live (follows_check (fun _ => follows_check (fun _ =>
    persistProfiles_follows fares alive recommits _ _)))

theorem persistActive_follows (candidate : List String) :
    Traces (Transition permit host) system (persistActive host environment candidate) := by
  refine follows_live ?_
  split
  · exact follows_pure trivial
  · have publication : Publication permit host system
        { protectedFromLive system.node with activeProfiles := candidate }
        (fun node => { node with activeProfiles := candidate }) :=
      .of_records alive recommits rfl rfl (fun _ => ⟨rfl, rfl, rfl, rfl, rfl, rfl⟩)
        (fun _ => ⟨rfl, rfl, rfl⟩) (fun _ sound => ⟨sound.policy, sound.pack, sound.members⟩)
    exact follows_persist fares publication alive rfl (show activeFangsFile ∈ flatFiles by decide)

omit fares alive recommits in
theorem follows_calm_return {change : Node → Node} (calm : ∀ node, Calm node (change node)) (status : Status) :
    Traces (Transition permit host) system (do update change; return status) :=
  follows_bind (follows_calm calm (.refl system)) (fun _ _ _ => follows_pure trivial)

theorem fangDeactivateProfile_follows (name : String) :
    Traces (Transition permit host) system (fangDeactivateProfile host environment name) := by
  refine follows_check (fun _ => follows_live (follows_check (fun _ =>
    follows_bind (persistActive_follows fares alive recommits _) (fun _ _ _ =>
      follows_check (fun _ => follows_calm_return ?_ _)))))
  exact fun _ => ⟨rfl, rfl⟩

theorem fangClose_follows (id : String) : Traces (Transition permit host) system (fangClose host environment id) := by
  refine follows_check (fun _ => follows_live (follows_expect (fun closed _ => ?_)))
  have saves : Traces (Transition permit host) system
      (persistFewer host environment (system.node.activeProfiles.filter (fun name =>
        !closed.belongsTo system.node.fangProfiles name)) system.node) := by
    unfold persistFewer
    split
    · exact follows_pure trivial
    · exact persistActive_follows fares alive recommits _
  refine follows_bind saves (fun _ _ _ => follows_check (fun _ => follows_calm_return ?_ _))
  exact fun _ => ⟨rfl, rfl⟩

omit fares alive recommits in
theorem fangCleanup_follows : Traces (Transition permit host) system (fangCleanup environment) := by
  refine follows_calm_return ?_ _
  exact fun _ => ⟨rfl, rfl⟩

omit recommits in
theorem openFang_follows (gates : Except Code Unit) (peer «local» remote : String)
    {activation : Option String} (recommits : activation.isSome → permit .recommits) :
    Traces (Transition permit host) system (openFang host environment gates peer «local» remote activation) := by
  refine follows_liftExcept (fun _ _ => follows_expect (fun listener _ => ?_))
  have activates : Traces (Transition permit host) system
      (activation.toList.forM (persistActivation host environment)) := by
    cases activation with
    | none => exact follows_pure trivial
    | some name =>
      have activated : Traces (Transition permit host) system (persistActivation host environment name) :=
        follows_live (follows_bind (persistActive_follows fares alive (recommits rfl) _) (fun saved _ _ => by
            cases saved with
            | true => exact follows_pure trivial
            | false => exact follows_throw))
      exact follows_bind activated (fun _ _ _ => follows_pure trivial)
  refine follows_bind activates (fun _ next _ =>
    follows_bind (follows_calm ?_ (.refl next)) (fun _ later _ => ?_))
  · exact fun _ => ⟨rfl, rfl⟩
  split
  · exact follows_pure trivial
  · exact follows_alter_bind (.single (transition_degrade later)) follows_throw

omit recommits in
theorem fangOpen_follows (peer «local» remote : String) :
    Traces (Transition permit host) system (fangOpen host environment peer «local» remote) :=
  follows_live (openFang_follows fares alive _ _ _ _ (fun activated => (by cases activated)))

theorem fangOpenProfile_follows (name : String) :
    Traces (Transition permit host) system (fangOpenProfile host environment name) :=
  follows_check (fun _ => follows_live (follows_expect (fun _ _ =>
    openFang_follows fares alive _ _ _ _ (fun _ => recommits))))

omit recommits in
theorem serviceConnect_follows (name «local» : String) :
    Traces (Transition permit host) system (serviceConnect host environment name «local») :=
  follows_check (fun _ => follows_live (follows_expect (fun _ _ =>
    openFang_follows fares alive _ _ _ _ (fun activated => (by cases activated)))))

end Profiles

end Werewolf.Control
