import Mathlib.Data.List.Nodup
import Mathlib.Data.List.Perm.Basic
import Mathlib.Tactic.Tauto
import Werewolf.State.Validation

/-! The validation loops as statements about the whole document, which no
longer mention the order of the records. -/

namespace Werewolf.State
open Library

def peerValid (external : External) (peer : PeerRecord) : Bool :=
  match peerEndpoint peer.address with
  | none => false
  | some address =>
      name peer.name && fingerprint peer.fingerprint && endpoint address &&
        match peer.publicKeyB64 with
        | none => true
        | some text =>
            match key external text with
            | none => false
            | some bytes => external.fromBytes bytes &&
                fingerprintFromPublicKeyB64 external text = some peer.fingerprint

def peerKey (external : External) (peer : PeerRecord) : Option Governance.Key :=
  peer.publicKeyB64.bind (key external)

theorem key_iff {external : External} {text : String} {bytes : Governance.Key} : key external text = some bytes ↔
      external.base64Decode text = some bytes.val ∧ external.base64Encode bytes.val = text := by
  unfold key
  constructor
  · intro read
    split at read
    · cases read
    · next raw decoded =>
        split_ifs at read with spelled size
        cases read
        exact ⟨decoded, not_not.mp spelled⟩
  · rintro ⟨decoded, spelled⟩
    simp [decoded, spelled, bytes.2]

theorem peerValid_some {external : External} {peer : PeerRecord} (valid : peerValid external peer = true) :
    fingerprint peer.fingerprint = true ∧ ∀ text, peer.publicKeyB64 = some text →
      ∃ bytes, key external text = some bytes ∧
        fingerprintFromPublicKeyB64 external text = some peer.fingerprint := by
  unfold peerValid at valid
  split at valid
  · cases valid
  · simp only [Bool.and_eq_true] at valid
    obtain ⟨⟨⟨_, printed⟩, _⟩, keyed⟩ := valid
    refine ⟨printed, fun text stores => ?_⟩
    rw [stores] at keyed
    cases read : key external text with
    | none => simp [read] at keyed
    | some bytes =>
      simp only [read, Bool.and_eq_true, decide_eq_true_eq] at keyed
      exact ⟨bytes, rfl, keyed.2⟩

private theorem packFrom_cons (external : External) (names fingerprints : List String)
    (keys : List Governance.Key) (peer : PeerRecord) (rest : List PeerRecord) :
    packFrom external names fingerprints keys (peer :: rest) = true ↔
      (peerValid external peer = true ∧ peer.name ∉ names ∧ peer.fingerprint ∉ fingerprints ∧
        ∀ bytes ∈ peerKey external peer, bytes ∉ keys) ∧
      packFrom external (peer.name :: names) (peer.fingerprint :: fingerprints)
        ((peerKey external peer).toList ++ keys) rest = true := by
  simp only [packFrom, peerValid, peerKey]
  cases peerEndpoint peer.address with
  | none => simp
  | some address =>
    cases peer.publicKeyB64 with
    | none => simp; tauto
    | some text =>
      cases found : key external text with
      | none => simp [found]
      | some bytes => simp [found]; tauto

private theorem packFrom_iff (external : External) (names fingerprints : List String)
    (keys : List Governance.Key) (peers : List PeerRecord) :
    packFrom external names fingerprints keys peers = true ↔
      (∀ peer ∈ peers, peerValid external peer = true ∧ peer.name ∉ names ∧
        peer.fingerprint ∉ fingerprints ∧ ∀ bytes ∈ peerKey external peer, bytes ∉ keys) ∧
      (peers.map (·.name)).Nodup ∧ (peers.map (·.fingerprint)).Nodup ∧
      (peers.filterMap (peerKey external)).Nodup := by
  induction peers generalizing names fingerprints keys with
  | nil => simp [packFrom]
  | cons peer rest ih =>
    rw [packFrom_cons, ih]
    cases found : peerKey external peer with
    | none =>
      simp only [List.map_cons, List.nodup_cons, List.filterMap_cons,
        found, List.mem_cons, not_or, List.mem_map, not_exists, not_and, Option.toList_none,
        List.nil_append]
      grind
    | some bytes =>
      simp only [List.map_cons, List.nodup_cons, List.filterMap_cons,
        found, List.mem_cons, not_or, List.mem_map, not_exists, not_and, Option.toList_some,
        List.singleton_append, List.mem_filterMap, Option.mem_def]
      grind

theorem pack_iff (external : External) (peers : List PeerRecord) : pack external peers = true ↔ peers.length ≤ 1024 ∧
      (∀ peer ∈ peers, peerValid external peer = true) ∧ (peers.map (·.name)).Nodup ∧
      (peers.map (·.fingerprint)).Nodup ∧ (peers.filterMap (peerKey external)).Nodup := by
  simp [pack, packFrom_iff]

theorem pack_perm {external : External} {left right : List PeerRecord}
    (permuted : left.Perm right) (valid : pack external left = true) :
    pack external right = true := by
  obtain ⟨size, records, names, fingerprints, keys⟩ := (pack_iff external left).mp valid
  exact (pack_iff external right).mpr ⟨permuted.length_eq ▸ size,
    fun peer member => records peer (permuted.mem_iff.mpr member),
    (permuted.map _).nodup_iff.mp names, (permuted.map _).nodup_iff.mp fingerprints,
    (permuted.filterMap _).nodup_iff.mp keys⟩

theorem pack_sublist {external : External} {fewer more : List PeerRecord}
    (sublist : fewer.Sublist more) (valid : pack external more = true) :
    pack external fewer = true := by
  obtain ⟨size, records, names, fingerprints, keys⟩ := (pack_iff external more).mp valid
  exact (pack_iff external fewer).mpr ⟨sublist.length_le.trans size,
    fun peer member => records peer (sublist.subset member),
    names.sublist (sublist.map _), fingerprints.sublist (sublist.map _),
    keys.sublist (sublist.filterMap _)⟩

def profileValid (external : External) (profile : FangProfile) : Bool :=
  name profile.name && name profile.peer && external.isSocketAddr profile.local &&
    endpoint profile.remote.toList && profile.transport ∈ ["quic", "tcp", "tcp-plain"]

private theorem profilesFrom_iff (external : External) (names : List String) (profiles : List FangProfile) :
    profilesFrom external names profiles = true ↔
      (∀ profile ∈ profiles, profileValid external profile = true ∧ profile.name ∉ names) ∧
        (profiles.map (·.name)).Nodup := by
  induction profiles generalizing names with
  | nil => simp [profilesFrom]
  | cons profile rest ih =>
    simp only [profilesFrom, Bool.if_false_left, Bool.and_eq_true, ih, profileValid,
      List.map_cons, List.nodup_cons, List.mem_map, List.mem_cons, Bool.not_eq_true',
      decide_eq_false_iff_not, decide_eq_true_eq]
    grind

theorem profileDocument_iff (external : External) (profiles : List FangProfile) :
    profileDocument external profiles = true ↔ profiles.length ≤ 512 ∧
      (∀ profile ∈ profiles, profileValid external profile = true) ∧
      (profiles.map (·.name)).Nodup := by
  simp [profileDocument, profilesFrom_iff]

theorem profileDocument_perm {external : External} {left right : List FangProfile}
    (permuted : left.Perm right) (valid : profileDocument external left = true) :
    profileDocument external right = true := by
  obtain ⟨size, profiles, names⟩ := (profileDocument_iff external left).mp valid
  exact (profileDocument_iff external right).mpr ⟨permuted.length_eq ▸ size,
    fun profile member => profiles profile (permuted.mem_iff.mpr member),
    (permuted.map _).nodup_iff.mp names⟩

private theorem activeFrom_iff (profiles : List FangProfile) (seen names : List String) :
    activeFrom profiles seen names = true ↔
      (∀ name ∈ names, name ∉ seen ∧ ∃ profile ∈ profiles, profile.name = name) ∧ names.Nodup := by
  induction names generalizing seen with
  | nil => simp [activeFrom]
  | cons name rest ih =>
    simp only [activeFrom, Bool.if_false_left, Bool.and_eq_true, ih, List.nodup_cons,
      List.mem_cons, Bool.not_eq_true', decide_eq_false_iff_not]
    grind

theorem active_iff (names : List String) (profiles : List FangProfile) :
    active names profiles = true ↔ names.length ≤ 512 ∧
      (∀ name ∈ names, ∃ profile ∈ profiles, profile.name = name) ∧ names.Nodup := by
  simp [active, activeFrom_iff]

theorem active_perm {left right : List String} {profiles others : List FangProfile} (permuted : left.Perm right)
    (sameProfiles : profiles.Perm others) (valid : active left profiles = true) : active right others = true := by
  obtain ⟨size, known, distinct⟩ := (active_iff left profiles).mp valid
  refine (active_iff right others).mpr ⟨permuted.length_eq ▸ size, fun name member => ?_,
    permuted.nodup_iff.mp distinct⟩
  obtain ⟨profile, profileMember, named⟩ := known name (permuted.mem_iff.mpr member)
  exact ⟨profile, sameProfiles.mem_iff.mp profileMember, named⟩

end Werewolf.State
