import Werewolf.Control.Dial
import Werewolf.Control.WriteProperties

/-! What the commands do to the open Fangs. A command opens at most one, once its
gates let it pass. For every Fang that it leaves open it keeps the record of every
member the Fang uses. While Silver is active there are no Fangs. -/

namespace Werewolf.Control
open Library Procedure Governance Policy
open State hiding name
open Storage hiding name
open Authority (Gate)
open Relation (ReflTransGen)

variable {host : Host} {environment : Environment} {system : System} {before after : Node}
  {accepted : List Route × List FangProfile → Prop}

section Nodes

def Coherent (node : Node) : Prop := node.silver = .active → node.fangs = [] ∧ node.mode = .silver

/-- The routes and the profiles, which other commands than their own leave alone. -/
def Node.plan (node : Node) : List Route × List FangProfile := (node.routes, node.fangProfiles)

structure Loyal (accepted : List Route × List FangProfile → Prop) (before after : Node) :
    Prop where
  fangs : after.fangs.Sublist before.fangs
  members : ∀ fang ∈ after.fangs, ∀ name record, fang.uses name = true →
    member before.peers name = some record → member after.peers name = some record
  coherent : Coherent before → Coherent after
  plan : after.plan = before.plan ∨ accepted after.plan

structure Aside (before after : Node) : Prop where
  fangs : after.fangs = before.fangs
  peers : after.peers = before.peers
  silver : after.silver = before.silver
  mode : after.mode = before.mode
  governance : after.governance = before.governance
  pelt : after.pelt = before.pelt
  dying : after.dying = before.dying
  plan : after.plan = before.plan

theorem Aside.refl (node : Node) : Aside node node := ⟨rfl, rfl, rfl, rfl, rfl, rfl, rfl, rfl⟩

theorem Aside.trans {middle : Node} (first : Aside before middle) (second : Aside middle after) :
    Aside before after where
  fangs := second.fangs.trans first.fangs
  peers := second.peers.trans first.peers
  silver := second.silver.trans first.silver
  mode := second.mode.trans first.mode
  governance := second.governance.trans first.governance
  pelt := second.pelt.trans first.pelt
  dying := second.dying.trans first.dying
  plan := second.plan.trans first.plan

theorem Aside.numbered (node : Node) (number : Option UInt64) :
    Aside node { node with generation := number } := ⟨rfl, rfl, rfl, rfl, rfl, rfl, rfl, rfl⟩

theorem Aside.coherent (aside : Aside before after) (coherent : Coherent before) : Coherent after := by
  intro active
  obtain ⟨closed, mode⟩ := coherent (aside.silver.symm.trans active)
  exact ⟨aside.fangs.trans closed, aside.mode.trans mode⟩

theorem Loyal.closes (fangs : after.fangs.Sublist before.fangs) (peers : after.peers = before.peers)
    (silver : after.silver = before.silver) (plan : after.plan = before.plan)
    (mode : before.fangs = [] → before.mode = .silver → after.mode = .silver) :
    Loyal accepted before after := by
  refine ⟨fangs, fun _ _ _ _ _ found => peers ▸ found, fun coherent active => ?_, .inl plan⟩
  obtain ⟨closed, shown⟩ := coherent (silver.symm.trans active)
  rw [closed] at fangs
  exact ⟨List.sublist_nil.mp fangs, mode closed shown⟩

theorem Aside.loyal (aside : Aside before after) : Loyal accepted before after :=
  .closes (by rw [aside.fangs]) aside.peers aside.silver aside.plan (fun _ shown => aside.mode.trans shown)

theorem Loyal.refl (node : Node) : Loyal accepted node node := (Aside.refl node).loyal

theorem Loyal.trans {middle : Node} (first : Loyal accepted before middle)
    (second : Loyal accepted middle after) : Loyal accepted before after where
  fangs := second.fangs.trans first.fangs
  members fang opened name record uses found :=
    second.members fang opened name record uses
      (first.members fang (second.fangs.subset opened) name record uses found)
  coherent coherent := second.coherent (first.coherent coherent)
  plan := by
    rcases second.plan with same | new
    · rw [same]
      exact first.plan
    · exact .inr new

end Nodes

section Steps

variable {candidate : ProtectedState}

def OnNodes (relation : Node → Node → Prop) (before after : System) : Prop :=
  relation before.node after.node

def Loyally (accepted : List Route × List FangProfile → Prop) : System → System → Prop :=
  OnNodes (Loyal accepted)

theorem Loyally.of_node {before after : System} (same : after.node = before.node) :
    Loyally accepted before after := by
  unfold Loyally OnNodes
  rw [same]
  exact .refl _

theorem loyal_of_steps {before after : System} (steps : ReflTransGen (Loyally accepted) before after) :
    Loyal accepted before.node after.node :=
  invariant_of_steps (fun system : System => Loyal accepted before.node system.node)
    (fun _ _ step loyal => loyal.trans step) steps (.refl _)

theorem follows_loyally {α : Type} {action : Action α} {holds : α → System → Prop}
    (follows : Follows (OnNodes Aside) system action holds) : Follows (Loyally accepted) system action holds :=
  follows.mono (fun _ _ => Aside.loyal)

variable {write : Write} {fate : Replacement} {publish : Node → Node}
  {relation : Node → Node → Prop}

theorem Settles.kept {den : Den} {ended : Option Storage.Outcome} {next : System}
    (settles : Settles publish system den ended next)
    (aside : ∀ node, Aside system.node node → relation system.node node)
    (published : relation system.node (publish system.node)) : OnNodes relation system next := by
  cases settles with
  | durable => exact published
  | unsure => exact aside _ ⟨rfl, rfl, rfl, rfl, rfl, rfl, rfl, rfl⟩
  | refused => exact aside _ (.refl _)
  | stopped => exact aside _ (.refl _)

theorem store_kept (aside : ∀ node, Aside system.node node → relation system.node node)
    (published : relation system.node (publish system.node)) :
    OnNodes relation system (system.store write fate publish).2 := by
  rcases store_cases system write fate publish with same | settles
  · rw [same]
    exact aside _ (.refl _)
  · exact settles.kept aside published

theorem follows_store_kept (aside : ∀ node, Aside system.node node → relation system.node node)
    (published : relation system.node (publish system.node)) :
    Follows (OnNodes relation) system (store write fate publish) (fun _ => OnNodes relation system) :=
  follows_alter (.single (store_kept aside published)) (store_kept aside published)

theorem follows_commit_kept {generation : UInt64} (aside : ∀ node, Aside system.node node → relation system.node node)
    (published : ∀ number, relation system.node (publish { system.node with generation := number })) :
    Follows (OnNodes relation) system (commitProtected host environment generation candidate publish)
      (fun _ => OnNodes relation system) := by
  have result : OnNodes relation system (system.commitProtected host generation candidate
      environment.protectedState publish).2 := by
    rcases commitProtected_cases host system generation candidate environment.protectedState publish
      with same | settles
    · rw [same]
      exact aside _ (.refl _)
    · exact settles.kept aside (published _)
  exact follows_alter (.single result) result

theorem follows_persist_kept {legacy : Write} (aside : ∀ node, Aside system.node node → relation system.node node)
    (published : ∀ number, relation system.node (publish { system.node with generation := number })) :
    Follows (OnNodes relation) system (persistProtectedOrLegacy host environment candidate legacy publish)
      (fun _ => OnNodes relation system) := by
  refine follows_live ?_
  cases selected : system.node.generation with
  | some generation => exact follows_commit_kept aside published
  | none =>
    refine follows_store_kept aside ?_
    have flat := published none
    rw [← selected] at flat
    exact flat

theorem follows_persist_loyal {legacy : Write}
    (published : ∀ number, Loyal accepted system.node (publish { system.node with generation := number })) :
    Traces (Loyally accepted) system (persistProtectedOrLegacy host environment candidate legacy publish) :=
  (follows_persist_kept (fun _ => Aside.loyal) published).imp (fun _ _ _ => trivial)

theorem follows_store_loyal (published : Loyal accepted system.node (publish system.node)) :
    Traces (Loyally accepted) system (store write fate publish) :=
  (follows_store_kept (fun _ => Aside.loyal) published).imp (fun _ _ _ => trivial)

theorem persistActive_aside (candidate : List String) :
    Follows (OnNodes Aside) system (persistActive host environment candidate)
      (fun _ next => Aside system.node next.node) := by
  refine follows_live ?_
  split
  · exact follows_pure (.refl _)
  · exact follows_persist_kept (fun _ => id) (fun _ => ⟨rfl, rfl, rfl, rfl, rfl, rfl, rfl, rfl⟩)

end Steps

section Gates

theorem onGate_aside {operation : Gate → Option Gate} {code : Code} :
    Follows (Loyally accepted) system (onGate operation code) (fun _ next => Aside system.node next.node) := by
  refine follows_live (follows_expect (fun gate _ => ?_))
  have aside : Aside system.node { system.node with gate := gate } :=
    ⟨rfl, rfl, rfl, rfl, rfl, rfl, rfl, rfl⟩
  exact follows_update aside.loyal aside

theorem publishRemoval_loyal (peer : String) : Traces (Loyally accepted) system (publishRemoval peer) := by
  refine follows_live ?_
  cases system.node.gate.removed peer with
  | some gate =>
    exact follows_update (Aside.loyal ⟨rfl, rfl, rfl, rfl, rfl, rfl, rfl, rfl⟩) trivial
  | none =>
    exact follows_alter_bind (.single (Aside.loyal ⟨rfl, rfl, rfl, rfl, rfl, rfl, rfl, rfl⟩)) follows_throw

theorem cleanup_loyal (peer : String) : Traces (Loyally accepted) system (cleanup environment peer) :=
  onGate_aside.imp (fun _ _ _ => trivial)

theorem lockGate_aside (refusal : Code) :
    Follows (Loyally accepted) system (lockGate refusal) (fun _ next => Aside system.node next.node) := by
  refine follows_live ?_
  have aside : Aside system.node { system.node with gate := system.node.gate.lock.1 } :=
    ⟨rfl, rfl, rfl, rfl, rfl, rfl, rfl, rfl⟩
  refine follows_update_bind aside.loyal ?_
  unfold Procedure.check
  split
  · exact follows_pure aside
  · exact follows_throw

end Gates

section Packs

variable {name : String} {peers : List PeerRecord}

theorem deny_closes (peer name : String) :
    Follows (Loyally accepted) system (do denyPeer peer; terminatePeer name) (fun _ next =>
      next.node.peers = system.node.peers ∧
        next.node.fangs = system.node.fangs.filter (fun fang => !fang.uses name)) := by
  refine follows_bind onGate_aside (fun _ denied aside => ?_)
  refine follows_update (Loyal.closes List.filter_sublist rfl rfl rfl (fun _ => id)) ?_
  exact ⟨aside.peers, by rw [aside.fangs]⟩

theorem dismiss_follows {ι : Type} (fingerprint name : ι → String) : ∀ (items : List ι) (system : System),
      Follows (Loyally accepted) system
        (items.forM (fun item => do denyPeer (fingerprint item); terminatePeer (name item)))
        (fun _ next => next.node.peers = system.node.peers ∧ ∀ fang ∈ next.node.fangs, fang ∈ system.node.fangs ∧
            ∀ item ∈ items, fang.uses (name item) = false)
  | [], system => follows_pure ⟨rfl, fun fang opened => ⟨opened, by simp⟩⟩
  | item :: items, system => by
    refine follows_bind (deny_closes (fingerprint item) (name item)) (fun _ next first => ?_)
    obtain ⟨peers, fangs⟩ := first
    refine (dismiss_follows fingerprint name items next).imp (fun _ last later => ?_)
    refine ⟨later.1.trans peers, fun fang opened => ?_⟩
    obtain ⟨left, others⟩ := later.2 fang opened
    rw [fangs, List.mem_filter, Bool.not_eq_true'] at left
    refine ⟨left.1, fun denied listed => ?_⟩
    rcases List.mem_cons.mp listed with rfl | listed
    · exact left.2
    · exact others denied listed

theorem member_filter {keep : PeerRecord → Bool} (kept : ∀ peer ∈ peers, peer.name = name → keep peer = true) :
    member (peers.filter keep) name = member peers name := by
  induction peers with
  | nil => rfl
  | cons peer rest ih =>
    have same := ih (fun other listed => kept other (List.mem_cons_of_mem _ listed))
    unfold member at same ⊢
    by_cases named : peer.name = name
    · rw [List.filter_cons_of_pos (kept peer List.mem_cons_self named)]
      simp [named]
    · rw [List.find?_cons_of_neg (by simpa using named), ← same, List.filter_cons]
      split
      · exact List.find?_cons_of_neg (by simpa using named)
      · rfl

theorem member_append {record added : PeerRecord} (found : member peers name = some record) :
    member (peers ++ [added]) name = some record := by
  unfold member at found ⊢
  rw [List.find?_append, found]
  rfl

theorem replacePack_loyal {candidate : List PeerRecord} {revokedFingerprint : Option String}
    (keeps : ∀ fang : Fang, (revokedFingerprint.isSome → fang.uses name = false) →
      ∀ used record, fang.uses used = true → member system.node.peers used = some record →
        member candidate used = some record) :
    Traces (Loyally accepted) system (replacePack host environment name candidate revokedFingerprint) := by
  refine follows_bind (dismiss_follows id (fun _ => name) revokedFingerprint.toList system)
    (fun _ next left => follows_live ?_)
  obtain ⟨peers, fangs⟩ := left
  have published : ∀ number, Loyal accepted next.node
      { next.node with generation := number, peers := candidate } := by
    refine fun number =>
      ⟨List.Sublist.refl _, fun fang opened used record uses found => ?_, id, .inl rfl⟩
    refine keeps fang (fun revoked => ?_) used record uses (peers ▸ found)
    obtain ⟨peer, rfl⟩ := Option.isSome_iff_exists.mp revoked
    exact (fangs fang opened).2 peer (by simp)
  refine follows_bind (follows_persist_loyal published) (fun _ _ _ => follows_check (fun _ => ?_))
  refine follows_bind (follows_forM (fun peer _ _ => publishRemoval_loyal peer) _ _ trivial) (fun _ _ _ => ?_)
  exact follows_forM (fun peer _ _ => cleanup_loyal peer) _ _ trivial

theorem packAdd_loyal (name fingerprint address publicKeyB64 : String) :
    Traces (Loyally accepted) system (packAdd host environment name fingerprint address publicKeyB64) := by
  refine follows_check (fun _ => follows_live ?_)
  refine follows_check (fun _ => follows_check (fun _ => follows_check (fun _ => ?_)))
  exact follows_bind (replacePack_loyal (fun _ _ _ _ _ found => member_append found))
    (fun _ _ _ => follows_pure trivial)

theorem takeOut_loyal (name : String) (status : Status) :
    Traces (Loyally accepted) system (takeOut host environment name status) := by
  refine follows_live (follows_check (fun shorter => follows_check (fun _ => ?_)))
  have present : (system.node.peers.find? (fun peer => peer.name = name)).isSome = true := by
    simpa using shorter
  refine follows_bind (replacePack_loyal (fun fang shuns used record uses found => ?_))
    (fun _ _ _ => follows_pure trivial)
  rw [member_filter (fun peer _ named => ?_)]
  · exact found
  · have denied := shuns (by simpa using present)
    simp only [ne_eq, decide_not, Bool.not_eq_true', decide_eq_false_iff_not]
    rintro rfl
    rw [named, uses] at denied
    cases denied

end Packs

section Addresses

variable {name address : String} {candidate : List PeerRecord} {changed : Bool} {node : Node}
  {peers : List PeerRecord}

theorem changeAddress_unchanged
    (change : changeAddress name address peers = some (false, candidate)) : candidate = peers := by
  induction peers generalizing candidate with
  | nil => cases change
  | cons peer rest ih =>
    simp only [changeAddress] at change
    split at change
    · simp only [Option.some.injEq, Prod.mk.injEq, ne_eq, decide_not, Bool.not_eq_false', decide_eq_true_eq] at change
      obtain ⟨rfl, rfl⟩ := change
      rfl
    · simp only [Option.map_eq_some_iff, Prod.exists, Prod.mk.injEq] at change
      obtain ⟨_, others, changed, rfl, rfl⟩ := change
      rw [ih changed]

theorem changeAddress_member {used : String}
    (change : changeAddress name address peers = some (changed, candidate)) (other : used ≠ name) :
    member candidate used = member peers used := by
  induction peers generalizing changed candidate with
  | nil => cases change
  | cons peer rest ih =>
    simp only [changeAddress] at change
    split at change
    · rename_i named
      simp only [Option.some.injEq, Prod.mk.injEq] at change
      obtain ⟨_, rfl⟩ := change
      simp [member, named, other.symm]
    · simp only [Option.map_eq_some_iff, Prod.exists, Prod.mk.injEq] at change
      obtain ⟨_, others, changed, rfl, rfl⟩ := change
      have same := ih changed
      simp only [member] at same
      simp only [member, List.find?_cons, same]

theorem affectedIds_spec {fang : Fang} (opened : fang ∈ node.fangs) (left : fang.id ∉ affectedIds node name changed) :
    changed = true → fang.uses name = false := by
  rintro rfl
  rw [affectedIds, if_pos rfl, List.mem_map] at left
  by_contra uses
  exact left ⟨fang, List.mem_filter.mpr ⟨opened, by simpa using uses⟩, rfl⟩

theorem publishInvalidatedRuntime_mode {candidateActive affected : List String} (closed : node.fangs = []) :
    (publishInvalidatedRuntime candidateActive affected node).mode = node.mode := by
  simp [publishInvalidatedRuntime, closed]

theorem publishInvalidatedRuntime_loyal (candidateActive affected : List String) (node : Node) :
    Loyal accepted node (publishInvalidatedRuntime candidateActive affected node) :=
  .closes List.filter_sublist rfl rfl rfl (fun closed shown => (publishInvalidatedRuntime_mode closed).trans shown)

theorem publishAddress_loyal {base : Node} (candidateActive : List String)
    (change : changeAddress name address base.peers = some (changed, candidate))
    (fangs : node.fangs = base.fangs) (peers : node.peers = base.peers) (number : Option UInt64) :
    Loyal accepted node (publishInvalidatedRuntime candidateActive (affectedIds base name changed)
      { node with generation := number, peers := candidate }) where
  fangs := List.filter_sublist
  members fang opened used record uses found := by
    simp only [publishInvalidatedRuntime, List.mem_filter, decide_eq_true_eq] at opened
    have shuns := affectedIds_spec (fangs ▸ opened.1) opened.2
    rw [peers] at found
    cases changed with
    | false => exact (congrArg (member · used) (changeAddress_unchanged change)).trans found
    | true =>
      refine (changeAddress_member change ?_).trans found
      rintro rfl
      rw [shuns rfl] at uses
      cases uses
  coherent coherent :=
    (publishInvalidatedRuntime_loyal candidateActive (affectedIds base name changed)
      { node with generation := number, peers := candidate } : Loyal accepted _ _).coherent coherent
  plan := .inl rfl

theorem saveNarrowed_aside (candidateActive old : List String) :
    Follows (Loyally accepted) system (saveNarrowed host environment candidateActive old)
      (fun _ next => Aside system.node next.node) := by
  unfold saveNarrowed
  split
  · exact follows_pure (.refl _)
  · exact follows_loyally (follows_store_kept (fun _ => id) (Aside.refl _))

theorem saveAddress_loyal (candidateActive : List String)
    (change : changeAddress name address system.node.peers = some (changed, candidate)) :
    Traces (Loyally accepted) system (saveAddress host environment system.node candidate candidateActive
      (affectedIds system.node name changed)) := by
  unfold saveAddress
  cases system.node.generation with
  | some generation =>
    exact (follows_commit_kept (fun _ => Aside.loyal) (fun number =>
      publishAddress_loyal candidateActive change rfl rfl number)).imp (fun _ _ _ => trivial)
  | none =>
    refine follows_bind (saveNarrowed_aside _ _) (fun narrowed next aside => ?_)
    split
    · exact follows_pure trivial
    · refine follows_bind (follows_store_loyal (publishAddress_loyal candidateActive change
        aside.fangs aside.peers next.node.generation)) (fun _ _ _ => follows_live ?_)
      split
      · exact follows_pure trivial
      · refine follows_bind (follows_store_loyal (.refl _)) (fun _ _ _ => ?_)
        split
        · exact follows_pure trivial
        · exact follows_alter_bind (.single (Aside.loyal ⟨rfl, rfl, rfl, rfl, rfl, rfl, rfl, rfl⟩))
            (follows_pure trivial)

theorem giveUp_loyal (candidateActive affected : List String) :
    Traces (Loyally accepted) system (giveUp candidateActive affected) := by
  refine follows_update ?_ trivial
  unfold Loyally OnNodes
  dsimp only
  split
  · exact publishInvalidatedRuntime_loyal _ _ _
  · exact .refl _

theorem packSetAddress_loyal (name address : String) :
    Traces (Loyally accepted) system (packSetAddress host environment name address) := by
  refine follows_live (follows_expect (fun changed change => ?_))
  refine follows_check (fun _ => follows_bind (?_ : Traces (Loyally accepted) system
    (applyPackAddressChange host environment name changed.2 changed.1))
    (fun _ _ _ => follows_pure trivial))
  refine follows_live (follows_check (fun _ => ?_))
  refine follows_bind (saveAddress_loyal _ change) (fun _ _ _ => ?_)
  split
  · exact follows_pure trivial
  · exact follows_bind (giveUp_loyal _ _) (fun _ _ _ => follows_throw)

end Addresses

section Commands

theorem peltInit_loyal : Traces (Loyally accepted) system (peltInit host environment) := by
  refine follows_alter_bind .refl (follows_check (fun _ => follows_check (fun _ => ?_)))
  refine follows_check (fun _ => follows_check (fun _ => follows_saved ?_))
  have published : Loyal accepted system.node { system.node with pelt := some environment.identity } :=
    .closes (List.Sublist.refl _) rfl rfl rfl (fun _ => id)
  refine follows_alter (.single ?_) trivial
  dsimp only
  split
  · exact .of_node rfl
  · exact store_kept (fun _ => Aside.loyal) published

theorem manifestMigrate_loyal : Traces (Loyally accepted) system (manifestMigrate host environment) := by
  refine follows_live (follows_check (fun _ => ?_))
  refine follows_alter_bind (.single ?_) (follows_live (follows_check (fun _ =>
    follows_pure trivial)))
  rcases migrate_settles host system environment.protectedState with same | settles
  · exact .of_node (congrArg System.node same)
  · exact settles.kept (fun _ => Aside.loyal) (Aside.loyal ⟨rfl, rfl, rfl, rfl, rfl, rfl, rfl, rfl⟩)

theorem follows_persist_saved {candidate : ProtectedState} {legacy : Write} {publish : Node → Node}
    {code : Code} {status : Status} (published : ∀ number,
      Loyal accepted system.node (publish { system.node with generation := number })) :
    Traces (Loyally accepted) system
      (do let saved ← persistProtectedOrLegacy host environment candidate legacy publish
          check saved code
          return status) :=
  follows_saved (follows_persist_loyal published)

theorem persistPolicy_loyal (parsed : TargetPolicy) (status : Status) :
    Traces (Loyally accepted) system (persistPolicy host environment parsed status) :=
  follows_expect (fun _ _ => follows_live
    (follows_persist_saved (fun _ => Aside.loyal ⟨rfl, rfl, rfl, rfl, rfl, rfl, rfl, rfl⟩)))

theorem changeGrant_loyal (change : TargetPolicy → String → SocketAddr → Option TargetPolicy) (refusal : Code)
    (status : Status) (peer target : String) :
    Traces (Loyally accepted) system (changeGrant host environment change refusal status peer target) :=
  follows_expect (fun _ _ => follows_live (follows_expect (fun _ _ =>
    follows_expect (fun _ _ => persistPolicy_loyal _ _))))

theorem persistProfiles_loyal {candidate : List FangProfile} (status : Status)
    (accepts : profileDocument host.toExternal candidate = true → accepted (system.node.routes, candidate)) :
    Traces (Loyally accepted) system (persistProfiles host environment candidate status) :=
  follows_check (fun valid => follows_live (follows_persist_saved (fun _ =>
    ⟨List.Sublist.refl _, fun _ _ _ _ _ => id, id, .inr (accepts valid)⟩)))

theorem persistFile_loyal {α : Type} {candidate : Except Code α} {file : String}
    {text : α → List UInt8} {publish : α → Node → Node} {refusal : Code} {status : Status}
    (published : ∀ value, candidate = .ok value → Loyal accepted system.node (publish value system.node)) :
    Traces (Loyally accepted) system (persistFile environment candidate file text publish refusal status) :=
  follows_liftExcept (fun value found =>
    follows_saved (follows_store_loyal (published value found)))

theorem fangClose_loyal (id : String) : Traces (Loyally accepted) system (fangClose host environment id) := by
  refine follows_check (fun _ => follows_live (follows_expect (fun closed found => ?_)))
  have fewer : Follows (Loyally accepted) system
      (persistFewer host environment (system.node.activeProfiles.filter (fun name =>
        !closed.belongsTo system.node.fangProfiles name)) system.node)
      (fun _ next => Aside system.node next.node) := by
    unfold persistFewer
    split
    · exact follows_pure (.refl _)
    · exact follows_loyally (persistActive_aside _)
  refine follows_bind fewer (fun _ next aside => follows_check (fun _ => ?_))
  refine follows_update_bind (.closes List.filter_sublist rfl rfl rfl (fun none => ?_)) (follows_pure trivial)
  rw [← aside.fangs, none] at found
  cases found

theorem fangCleanup_loyal : Traces (Loyally accepted) system (fangCleanup environment) :=
  follows_update_bind (.closes List.filter_sublist rfl rfl rfl (fun _ => id)) (follows_pure trivial)

theorem fangDeactivateProfile_loyal (name : String) :
    Traces (Loyally accepted) system (fangDeactivateProfile host environment name) := by
  refine follows_check (fun _ => follows_live (follows_check (fun _ => ?_)))
  refine follows_bind (follows_loyally (persistActive_aside _)) (fun _ next _ => follows_check (fun _ => ?_))
  refine follows_update_bind (.closes List.filter_sublist rfl rfl rfl (fun _ shown => ?_)) (follows_pure trivial)
  simp [shown]

theorem discoverNetwork_loyal : Traces (Loyally accepted) system (discoverNetwork host environment) := by
  refine follows_live (follows_liftExcept (fun _ _ => follows_check (fun _ => ?_)))
  cases environment.contacts with
  | none => exact follows_pure trivial
  | some data =>
    dsimp only
    split
    · exact follows_pure trivial
    · exact follows_bind (follows_store_loyal (.refl _)) (fun _ _ _ => follows_pure trivial)

theorem silverTrigger_loyal : Traces (Loyally accepted) system (silverTrigger host environment) := by
  refine follows_bind (lockGate_aside _) (fun _ next _ => follows_saved (follows_live ?_))
  refine follows_persist_loyal (fun _ =>
    ⟨List.nil_sublist _, fun _ opened => ?_, fun _ _ => ⟨rfl, rfl⟩, .inl rfl⟩)
  cases opened

theorem liftSilver_loyal (expected : UInt64) (node : Node) : Loyal accepted node (liftSilver host expected node) := by
  have disarmed (gate : Gate) : Loyal accepted node { node with mode := .human, silver := .armed, gate := gate } :=
    ⟨List.Sublist.refl _, fun _ _ _ _ _ => id, fun _ active => (by cases active), .inl rfl⟩
  unfold liftSilver
  dsimp only
  split
  · exact disarmed node.gate
  · cases node.gate.openAfterDurable expected with
    | some gate => exact disarmed gate
    | none => exact .refl _

theorem silverReset_loyal : Traces (Loyally accepted) system (silverReset host environment) := by
  refine follows_live (follows_bind (follows_live (follows_persist_loyal (fun number => ?_)))
    (fun _ _ _ => follows_check (fun _ => follows_check (fun _ => follows_pure trivial))))
  exact (Aside.numbered system.node number).loyal.trans (liftSilver_loyal _ _)

end Commands

section Ending

theorem replaceFile_loyal (write : Write) (fate : Replacement) :
    Follows (Loyally accepted) system (replaceFile write fate) (fun _ next => next.node = system.node) := by
  have same : (system.replaceFile write fate).2.node = system.node := by
    rcases replaceFile_cases system write fate with same | noted
    · rw [same]
    · rw [noted]
      rfl
  exact follows_alter (.single (.of_node same)) same

theorem writeTombstone_loyal (tombstone : Tombstone) :
    Traces (Loyally accepted) system (writeTombstone host environment tombstone) := by
  unfold writeTombstone
  cases tombstone.encode host with
  | none => exact follows_pure trivial
  | some data => exact (replaceFile_loyal _ _).imp (fun _ _ _ => trivial)

theorem finishDen_loyal (tombstone : Tombstone) :
    Traces (Loyally accepted) system (finishDen host environment tombstone) := by
  refine follows_alter (.single (.of_node ?_)) trivial
  simp only [System.finish]
  split <;> rfl

theorem lockNode_loyal (node : Node) : Loyal accepted node (lockNode node) :=
  .closes (List.nil_sublist _) rfl rfl rfl (fun _ => id)

theorem die_loyal (statement : Statement) : Traces (Loyally accepted) system (die host environment statement) := by
  refine follows_update_bind (lockNode_loyal _) ?_
  cases Tombstone.ofDeath host statement .incomplete with
  | none => exact follows_pure trivial
  | some tombstone =>
    refine follows_bind (writeTombstone_loyal tombstone) (fun _ _ _ => ?_)
    split
    · exact finishDen_loyal tombstone
    · exact follows_pure trivial

theorem retire_loyal (confirm : String) : Traces (Loyally accepted) system (retire host environment confirm) := by
  refine follows_live (follows_expect (fun _ _ => follows_check (fun _ => ?_)))
  refine follows_update_bind (.closes (List.Sublist.refl _) rfl rfl rfl (fun _ => id)) ?_
  refine follows_expect (fun tombstone _ => ?_)
  refine follows_bind (writeTombstone_loyal tombstone) (fun ended _ _ => ?_)
  split
  · exact follows_update_bind (lockNode_loyal _)
      (follows_bind (finishDen_loyal tombstone) (fun _ _ _ => follows_pure trivial))
  · exact follows_update_bind (.closes (List.Sublist.refl _) rfl rfl rfl (fun _ => id)) follows_throw
  · exact follows_alter_bind (.single (Aside.loyal ⟨rfl, rfl, rfl, rfl, rfl, rfl, rfl, rfl⟩)) follows_throw
  · exact follows_throw

end Ending

section Governing

theorem fence_loyal (fences : Bool) : Follows (Loyally accepted) system (fence fences) (fun _ next =>
      next.node.peers = system.node.peers) := by
  cases fences with
  | true =>
    refine follows_bind (lockGate_aside _) (fun _ next aside => ?_)
    exact follows_update (.closes (List.nil_sublist _) rfl rfl rfl (fun _ => id)) aside.peers
  | false => exact follows_pure rfl

theorem reopen_loyal (reopens : Bool) (epoch : UInt64) (node : Node) :
    Loyal accepted node (reopen reopens epoch node) := by
  unfold reopen
  split
  · exact .closes (List.Sublist.refl _) rfl rfl rfl (fun _ => id)
  · exact .refl _

theorem conclude_loyal (statement : Statement) (next : Head) (reopens : Bool) (epoch : UInt64) :
    Traces (Loyally accepted) system (conclude host environment statement next reopens epoch) := by
  unfold conclude
  split
  · exact die_loyal statement
  · exact follows_update (reopen_loyal _ _ _) trivial

theorem member_withoutRevoked {revoked peers : List PeerRecord} {fang : Fang} {name : String}
    (shuns : ∀ peer ∈ revoked, fang.uses peer.name = false) (uses : fang.uses name = true) :
    member (withoutRevoked revoked peers) name = member peers name := by
  refine member_filter (fun peer _ named => ?_)
  simp only [Bool.not_eq_true', List.any_eq_false, decide_eq_true_eq]
  intro other listed same
  have denied := shuns other listed
  rw [same, named, uses] at denied
  cases denied

theorem enact_loyal (statement : Statement) (generation : UInt64) (next : Head) :
    Traces (Loyally accepted) system (enact host environment statement system.node generation next) := by
  refine follows_bind (replaceFile_loyal _ _) (fun _ archived same => ?_)
  refine follows_check (fun _ => follows_bind (fence_loyal _) (fun _ fenced kept => ?_))
  refine follows_bind (dismiss_follows PeerRecord.fingerprint PeerRecord.name
    (system.node.peers.filter (excludes host.toExternal next)) fenced) (fun _ denied left => ?_)
  obtain ⟨peers, fangs⟩ := left
  have published : ∀ number, Loyal accepted denied.node { denied.node with
      generation := number
      peers := withoutRevoked (system.node.peers.filter (excludes host.toExternal next)) system.node.peers
      governance := some next } := by
    refine fun number =>
      ⟨List.Sublist.refl _, fun fang opened used record uses found => ?_, id, .inl rfl⟩
    rw [peers, kept, same] at found
    exact (member_withoutRevoked (fangs fang opened).2 uses).trans found
  refine follows_live (follows_bind (follows_commit_kept (fun _ => Aside.loyal)
    published) (fun _ _ _ => follows_check (fun _ => ?_)))
  refine follows_bind (follows_forM (fun peer _ _ => publishRemoval_loyal _) _ _ trivial) (fun _ _ _ => ?_)
  refine follows_bind (follows_forM (fun peer _ _ => cleanup_loyal _) _ _ trivial) (fun _ _ _ => ?_)
  exact follows_bind (conclude_loyal _ _ _ _) (fun _ _ _ => follows_pure trivial)

theorem recordFork_loyal (node : Node) (generation : UInt64) (fenced : Head) :
    Traces (Loyally accepted) system (recordFork host environment node generation fenced) := by
  have published : ∀ number, Loyal accepted system.node
      { system.node with generation := number, governance := some fenced } :=
    fun _ => .closes (List.Sublist.refl _) rfl rfl rfl (fun _ => id)
  exact follows_bind (follows_commit_kept (fun _ => Aside.loyal) published) (fun _ _ _ => follows_pure trivial)

theorem applyStatement_loyal (statement : Statement) (expectHash : Option Hash) :
    Traces (Loyally accepted) system (applyStatement host environment statement expectHash) := by
  refine follows_live (follows_expect (fun generation _ => ?_))
  split
  · exact follows_pure trivial
  · exact enact_loyal _ _ _
  · exact follows_bind (recordFork_loyal _ _ _) (fun _ _ _ => follows_throw)
  · exact follows_throw
  · exact follows_throw
  · exact follows_throw

theorem recordConflict_loyal (pair : List Statement) :
    Traces (Loyally accepted) system (recordConflict host environment pair) := by
  refine follows_live ?_
  split
  · exact follows_bind (recordFork_loyal _ _ _) (fun _ _ _ => follows_pure trivial)
  · exact follows_pure trivial

theorem governanceApply_loyal (statement : List UInt8) (expectHash : Option Hash) :
    Traces (Loyally accepted) system (governanceApply host environment statement expectHash) :=
  follows_expect (fun _ _ => applyStatement_loyal _ _)

theorem applyAll_loyal (statements : List Statement) (environments : Nat → Environment) (system : System) :
    Traces (Loyally accepted) system (applyAll host environments statements) := by
  induction statements generalizing environments system with
  | nil => exact follows_pure trivial
  | cons statement rest ih =>
    exact follows_attempt_bind (applyStatement_loyal _ _) (fun _ next _ _ => ih _ next)
      (fun _ _ => follows_pure trivial)

theorem governanceSyncApply_loyal (environments : Nat → Environment)
    (statements : List (List UInt8)) (conflict : Option (List (List UInt8))) :
    Traces (Loyally accepted) system (governanceSyncApply host environments statements conflict) := by
  refine follows_expect (fun decoded _ => follows_bind (applyAll_loyal decoded environments _)
    (fun stopped _ _ => ?_))
  split
  · exact follows_bind (recordConflict_loyal _) (fun _ _ _ => follows_pure trivial)
  · exact follows_pure trivial

end Governing

section Opening

variable {α : Type} {node : Node} {gates : Except Code Unit}

def Node.asks (node : Node) : Command → Option (String × String × String)
  | .fangOpen peer «local» remote => some (peer, «local», remote)
  | .fangOpenProfile name =>
      (node.fangProfiles.find? (fun profile => profile.name = name)).map
        (fun profile => (profile.peer, profile.local, profile.remote))
  | .serviceConnect name «local» =>
      (node.services.find? (fun service => service.name = name)).map
        (fun service => (service.peer, «local», service.target))
  | _ => none

/-- The routes and profiles that a command may publish. -/
def Node.accepts (host : Host) (node : Node) (command : Command) (plan : List Route × List FangProfile) : Prop :=
  match command with
  | .routeSet peer via hop =>
      routeSet node.routes (node.peers.map (·.name)) peer via hop = .ok plan.1 ∧ plan.2 = node.fangProfiles
  | .routeRemove peer => routeRemove node.routes peer = .ok plan.1 ∧ plan.2 = node.fangProfiles
  | .fangProfileAdd _ | .fangProfileRemove _ =>
      plan.1 = node.routes ∧ profileDocument host.toExternal plan.2 = true
  | _ => False

structure Opens (host : Host) (environment : Environment) (command : Command) (fang : Fang)
    (before after : Node) : Prop where
  asked : before.asks command = some (fang.peer, fang.local, fang.remote)
  listener : environment.listener = some (fang.id, fang.alsoUses)
  alive : before.dying = false
  admitted : outwardGates host before = .ok ()
  unused : ∀ other ∈ before.fangs, other.local ≠ fang.local
  opened : Aside { before with fangs := before.fangs ++ [fang], mode := .wolf } after

inductive Handles (host : Host) (environment : Environment) (command : Command)
    (before after : Node) : Prop where
  | loyal (loyal : Loyal (before.accepts host command) before after)
  | opens (fang : Fang) (opens : Opens host environment command fang before after)

variable {command : Command}

theorem follows_handles {action : Action α} {holds : α → System → Prop}
    (follows : Follows (Loyally (system.node.accepts host command)) system action holds) :
    Handles host environment command system.node (execute action system).2.node :=
  .loyal (loyal_of_steps follows.1)

theorem persistActivation_aside (name : String) :
    Follows (OnNodes Aside) system (persistActivation host environment name)
      (fun _ next => Aside system.node next.node) := by
  refine follows_live (follows_bind (persistActive_aside _) (fun saved next aside => ?_))
  unfold Procedure.check
  split
  · exact follows_pure aside
  · exact follows_throw

private theorem openFang_steps {peer «local» remote : String} (environment : Environment) (activation : Option String)
    (alive : system.node.dying = false) (asked : system.node.asks command = some (peer, «local», remote))
    (passed : gates = .ok () → outwardGates host system.node = .ok () ∧
      ∀ other ∈ system.node.fangs, other.local ≠ «local») :
    Traces (fun before after => OnNodes Aside before after ∨ ∃ fang,
        Opens host environment command fang system.node after.node) system
      (openFang host environment gates peer «local» remote activation) := by
  refine follows_liftExcept (fun _ accepted => follows_expect (fun listener found => ?_))
  obtain ⟨admitted, unused⟩ := passed accepted
  have activates : Follows (OnNodes Aside) system (activation.toList.forM (persistActivation host environment))
      (fun _ next => Aside system.node next.node) :=
    follows_forM (fun name state since => (persistActivation_aside name).imp
      (fun _ _ aside => since.trans aside)) _ _ (.refl _)
  refine follows_bind (activates.mono (fun _ _ => .inl)) (fun _ next aside => ?_)
  refine follows_update_bind (.inr ⟨⟨listener.1, peer, «local», remote, listener.2⟩,
    asked, found, alive, admitted, unused, ?_⟩) ?_
  · obtain ⟨fangs, peers, silver, _, governance, pelt, dying, plan⟩ := aside
    exact ⟨congrArg (· ++ _) fangs, peers, silver, rfl, governance, pelt, dying, plan⟩
  · split
    · exact follows_pure trivial
    · exact follows_alter_bind (.single (.inl ⟨rfl, rfl, rfl, rfl, rfl, rfl, rfl, rfl⟩)) follows_throw

theorem openFang_handles {peer «local» remote : String} (activation : Option String)
    (alive : system.node.dying = false) (asked : system.node.asks command = some (peer, «local», remote))
    (passed : gates = .ok () → outwardGates host system.node = .ok () ∧
      ∀ other ∈ system.node.fangs, other.local ≠ «local») :
    Handles host environment command system.node
      (execute (openFang host environment gates peer «local» remote activation) system).2.node := by
  have reached := invariant_of_steps (fun later : System => Aside system.node later.node ∨
    ∃ fang, Opens host environment command fang system.node later.node) ?_
    (openFang_steps environment activation alive asked passed).1 (.inl (.refl _))
  · rcases reached with aside | ⟨fang, opens⟩
    · exact .loyal aside.loyal
    · exact .opens fang opens
  · rintro before after (aside | opens) since
    · refine since.imp (fun since => since.trans aside) (fun opened => ?_)
      obtain ⟨fang, asked, listener, alive, admitted, unused, opened⟩ := opened
      exact ⟨fang, asked, listener, alive, admitted, unused, opened.trans aside⟩
    · exact .inr opens

private theorem outward_ok {«local» : String} {rest : Except Code Unit}
    (passed : (do outwardGates host node; rest) = .ok ())
    (refused : node.fangs.any (fun fang => fang.local = «local») = true → rest ≠ .ok ()) :
    outwardGates host node = .ok () ∧ ∀ other ∈ node.fangs, other.local ≠ «local» := by
  cases outward : outwardGates host node with
  | error code =>
    rw [outward] at passed
    cases passed
  | ok _ =>
    rw [outward] at passed
    refine ⟨rfl, fun other opened same => ?_⟩
    exact refused (List.any_eq_true.mpr ⟨other, opened, by simp [same]⟩) passed

theorem fangGates_ok {peer «local» remote : String} (passed : fangGates host peer «local» remote node = .ok ()) :
    outwardGates host node = .ok () ∧ ∀ other ∈ node.fangs, other.local ≠ «local» := by
  refine outward_ok passed (fun used => ?_)
  rw [used]
  split <;> exact (nomatch ·)

theorem providerGates_ok {«local» : String} (passed : providerGates host «local» node = .ok ()) :
    outwardGates host node = .ok () ∧ ∀ other ∈ node.fangs, other.local ≠ «local» := by
  refine outward_ok passed (fun used => ?_)
  rw [used]
  split <;> exact (nomatch ·)

private theorem handles_of_check {condition : Bool} {code : Code} {rest : Unit → Action α}
    (passes : condition = true → Handles host environment command system.node (execute (rest ()) system).2.node) :
    Handles host environment command system.node
      (execute (Procedure.check condition code >>= rest) system).2.node := by
  cases condition with
  | true => exact passes rfl
  | false => exact .loyal (.refl _)

private theorem handles_of_expect {β : Type} {value : Option α} {code : Code} {rest : α → Action β}
    (found : ∀ some, value = .some some →
      Handles host environment command system.node (execute (rest some) system).2.node) :
    Handles host environment command system.node (execute (Procedure.expect value code >>= rest) system).2.node := by
  cases value with
  | some value => exact found value rfl
  | none => exact .loyal (.refl _)

theorem carryOut_handles (environments : Nat → Environment) (command : Command) (alive : system.node.dying = false) :
    Handles host (environments 0) command system.node
      (execute (carryOut host environments system.node command) system).2.node := by
  cases command with
  | fangOpen peer «local» remote => exact openFang_handles none alive rfl fangGates_ok
  | fangOpenProfile name =>
    refine handles_of_check (fun _ => handles_of_expect (fun profile found => ?_))
    refine openFang_handles (some name) alive ?_ fangGates_ok
    simp only [Node.asks, found, Option.map_some]
  | serviceConnect name «local» =>
    refine handles_of_check (fun _ => handles_of_expect (fun service found => ?_))
    refine openFang_handles none alive ?_ (fun passed => ?_)
    · simp only [Node.asks, found, Option.map_some]
    · split at passed
      · exact fangGates_ok passed
      · exact providerGates_ok passed
  | silverTrigger => exact follows_handles silverTrigger_loyal
  | silverReset => exact follows_handles silverReset_loyal
  | peltInit => exact follows_handles peltInit_loyal
  | denRetire confirm => exact follows_handles (retire_loyal confirm)
  | manifestMigrate => exact follows_handles manifestMigrate_loyal
  | packAdd name fingerprint address publicKeyB64 =>
    exact follows_handles (packAdd_loyal name fingerprint address publicKeyB64)
  | packSetAddress name address => exact follows_handles (packSetAddress_loyal name address)
  | packRevoke name => exact follows_handles (takeOut_loyal name _)
  | packRemove name => exact follows_handles (takeOut_loyal name _)
  | targetPolicySet document =>
    exact follows_handles (follows_expect (fun _ _ => persistPolicy_loyal _ _))
  | targetAllow peer target => exact follows_handles (changeGrant_loyal _ _ _ peer target)
  | targetRemove peer target => exact follows_handles (changeGrant_loyal _ _ _ peer target)
  | fangProfileAdd profile =>
    exact follows_handles (follows_live (follows_check (fun _ =>
      persistProfiles_loyal _ (fun valid => ⟨rfl, valid⟩))))
  | fangProfileRemove name =>
    exact follows_handles (follows_live (follows_check (fun _ =>
      follows_check (fun _ => persistProfiles_loyal _ (fun valid => ⟨rfl, valid⟩)))))
  | fangDeactivateProfile name => exact follows_handles (fangDeactivateProfile_loyal name)
  | fangClose id => exact follows_handles (fangClose_loyal id)
  | fangCleanup => exact follows_handles fangCleanup_loyal
  | fangList => exact follows_handles fangCleanup_loyal
  | discoverNetwork => exact follows_handles discoverNetwork_loyal
  | governanceApply statement expectHash =>
    exact follows_handles (governanceApply_loyal statement expectHash)
  | governanceSyncApply statements conflict =>
    exact follows_handles (governanceSyncApply_loyal environments statements conflict)
  | routeSet _ _ _ | routeRemove _ =>
    exact follows_handles (persistFile_loyal (fun _ found =>
      ⟨List.Sublist.refl _, fun _ _ _ _ _ => id, id, .inr ⟨found, rfl⟩⟩))
  | _ =>
    exact follows_handles (persistFile_loyal (fun _ _ =>
      Aside.loyal ⟨rfl, rfl, rfl, rfl, rfl, rfl, rfl, rfl⟩))

theorem serve_handles (host : Host) (command : Command) (environments : Nat → Environment) (system : System) :
    Handles host (environments 0) command system.node (serve host command environments system).2.node := by
  have handled : Handles host (environments 0) command system.fresh.node (execute (do
        Procedure.check (!system.fresh.node.dying) .lifecycleDying
        Procedure.check (!(command.mutates && system.fresh.node.storageDegraded)) .storageDegraded
        carryOut host environments system.fresh.node command) system.fresh).2.node :=
    handles_of_check (fun alive => handles_of_check (fun _ =>
      carryOut_handles environments command (by simpa using alive)))
  exact handled

theorem loadStartupState_idle {den : Den} (loaded : loadStartupState host den = some node) :
    node.fangs = [] ∧ Coherent node := by
  simp only [loadStartupState, bind_eq_some, return_eq_some] at loaded
  obtain ⟨⟨generation, state⟩, _, _, _, _, _, _, _, _, _, _, _, _, _, _, _, _, _, rfl⟩ := loaded
  refine ⟨rfl, fun active => ⟨rfl, ?_⟩⟩
  simp only at active
  split at active
  · rename_i locked
    exact if_pos locked
  · cases active

end Opening

end Werewolf.Control
