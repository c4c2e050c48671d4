import Werewolf.Control.RestoreProperties
import Werewolf.Policy.CanonicalProperties

/-! A migration against the start it replaces. The daemon reads the flat files
once to run from them and once to migrate them, by two readers with different
limits and different views of a policy that cannot be read. -/

namespace Werewolf.Control
open Library Governance State Policy Storage

variable {host : Host} {den : Den} {flat state : ProtectedState}

section Readers

variable {α β : Type} {file : String} {limit wider : Nat} {default : α} {other : β}
  {parse : List UInt8 → Except Storage.Error α} {read : List UInt8 → Except Storage.Error β}

theorem readFlat_related (relation : α → β → Prop) {value : α} {result : β}
    (first : readFlat den file limit default parse = .ok value)
    (second : readFlat den file wider other read = .ok result) (absent : relation default other)
    (parsed : ∀ data, parse data = .ok value → read data = .ok result → relation value result) :
    relation value result := by
  simp only [readFlat, bind_eq_ok] at first second
  obtain ⟨found, present, rest⟩ := first
  obtain ⟨again, presentAgain, restAgain⟩ := second
  have same : found = again := by
    cases held : den file with
    | none =>
      simp only [Storage.read, held, Except.ok.injEq] at present presentAgain
      rw [← present, ← presentAgain]
    | some data =>
      simp only [Storage.read, held, ite_eq_ok_iff, Except.ok.injEq] at present presentAgain
      rw [← present.2, ← presentAgain.2]
  subst same
  cases found with
  | none =>
    cases rest
    cases restAgain
    exact absent
  | some data => exact parsed data rest restAgain

theorem readFlat_same {values others : α} (first : readFlat den file limit default parse = .ok values)
    (second : readFlat den file limit default parse = .ok others) : values = others :=
  Except.ok.inj (first.symm.trans second)

theorem flatSilver_agrees (roundTrip : host.toPlatform.RoundTrip) {data : List UInt8} {locked again : Bool}
    (read : flatSilver host data = .ok locked) (migrated : (canonicalSilverFromLegacy host.toPlatform data >>=
      parseSilver host.toPlatform) = .ok again) : again = locked := by
  obtain ⟨canonical, written, parsed⟩ := bind_eq_ok.mp migrated
  simp only [flatSilver, bind_eq_ok, orError_eq_ok_iff, ite_eq_ok_iff] at read
  simp only [canonicalSilverFromLegacy, bind_eq_ok, orError_eq_ok_iff, ite_eq_ok_iff] at written
  obtain ⟨value, found, _, mode⟩ := read
  obtain ⟨_, foundAgain, _, modeAgain⟩ := written
  cases found.symm.trans foundAgain
  have canonicalOf : canonical = canonicalSilver locked := by
    split at mode
    · rename_i isLocked
      cases mode
      rw [if_pos isLocked] at modeAgain
      exact (Except.ok.inj modeAgain).symm
    · rename_i notLocked
      rw [if_neg notLocked] at modeAgain
      split at mode
      · rename_i isOpen
        cases mode
        rw [if_pos isOpen] at modeAgain
        exact (Except.ok.inj modeAgain).symm
      · cases mode
  rw [canonicalOf, parseSilver_canonicalSilver roundTrip] at parsed
  exact (Except.ok.inj parsed).symm

theorem policy_agrees (roundTrip : host.toPlatform.RoundTrip) {data : List UInt8} {policy : TargetPolicy}
    (migrated : (orError .invalidPolicy (canonicalize host.toAddressing host.readPolicy data) >>=
      parsePolicy host.toPlatform) = .ok policy) :
    policy = ((host.readPolicy data).bind policyOf).getD .invalid ∧ policy.WellFormed := by
  obtain ⟨canonical, written, parsed⟩ := bind_eq_ok.mp migrated
  obtain ⟨found, read, written⟩ := Option.bind_eq_some_iff.mp (orError_eq_ok_iff.mp written)
  have canonicalOf : canonicalPolicy host.toPlatform found = .ok canonical :=
    orError_eq_ok_iff.mpr written
  obtain ⟨source, _, sourceRead⟩ := Option.bind_eq_some_iff.mp read
  have wellFormed := policyOf_wellFormed sourceRead
  rw [parsePolicy_canonicalPolicy roundTrip wellFormed canonicalOf] at parsed
  have valid : found ≠ .invalid := by
    rintro rfl
    cases canonicalOf
  have same : found.normal = found := by
    rcases policyOf_accepted sourceRead valid with ⟨_, rfl⟩ | ⟨_, _, _, _, _, _, rfl⟩ <;> rfl
  cases parsed
  rw [same, read]
  exact ⟨rfl, wellFormed⟩

end Readers

structure SameState (addressing : Addressing) (left right : ProtectedState) : Prop where
  silverLocked : left.silverLocked = right.silverLocked
  peers : left.peers.Perm right.peers
  fangProfiles : left.fangProfiles.Perm right.fangProfiles
  activeProfiles : left.activeProfiles.Perm right.activeProfiles
  targetPolicy : DecideAlike addressing left.targetPolicy right.targetPolicy
  governance : left.governance = right.governance

theorem sameState_normal (addressing : Addressing) (state : ProtectedState) :
    SameState addressing state.normal state where
  silverLocked := rfl
  peers := sortOn_perm _ _
  fangProfiles := sortOn_perm _ _
  activeProfiles := sortOn_perm _ _
  targetPolicy resolver peer target := authorize_normal addressing resolver _ peer target
  governance := rfl

theorem legacyState_agrees (roundTrip : host.toPlatform.RoundTrip) (started : flatState host den = .ok flat)
    (migrated : legacyState host.toPlatform den = .ok state) :
    state = flat ∧ state.targetPolicy.WellFormed := by
  simp only [flatState, bind_eq_ok, return_eq_ok] at started
  obtain ⟨locked, silver, policy, policyRead, peers, pack, profiles, fangs, names, actives, rfl⟩ :=
    started
  simp only [legacyState, bind_eq_ok, return_eq_ok] at migrated
  obtain ⟨again, silverAgain, _, packAgain, other, policyAgain, _, fangsAgain, _, activesAgain,
    rfl⟩ := migrated
  cases readFlat_same pack packAgain
  cases readFlat_same fangs fangsAgain
  cases readFlat_same actives activesAgain
  have bits : again = locked :=
    readFlat_related (fun locked again => again = locked) silver silverAgain rfl
      (fun data => flatSilver_agrees roundTrip)
  have policies : other = policy ∧ other.WellFormed := by
    refine readFlat_related (fun policy other : TargetPolicy => other = policy ∧ other.WellFormed)
      policyRead policyAgain ⟨rfl, trivial⟩ (fun data parsed reparsed => ?_)
    cases parsed
    exact policy_agrees roundTrip reparsed
  refine ⟨?_, policies.2⟩
  rw [bits, policies.1]

theorem loadProtected_legacy_iff : loadProtected host den = some (none, flat) ↔
      load host.toPlatform den = .ok .legacy ∧ flatState host den = .ok flat := by
  unfold loadProtected
  cases load host.toPlatform den with
  | error error => simp
  | ok loaded =>
    cases loaded with
    | manifest generation state => simp
    | legacy =>
      cases flatState host den with
      | error error => simp [Except.toOption]
      | ok state => simp [Except.toOption]

/-- What a migration has stored stands for what a start reads from the flat files. -/
theorem migration_keeps_the_state (host : Host) (roundTrip : host.toPlatform.RoundTrip)
    (den : Den) (fates : Nat → Replacement) (flat : ProtectedState) (generation : Generation)
    (started : loadProtected host den = some (none, flat))
    (migrated : (migrate host.toPlatform den fates).2 = .reported (.durablyCommitted generation)) :
    ∃ state, load host.toPlatform (den.apply (migrate host.toPlatform den fates).1) =
        .ok (.manifest generation state) ∧
      loadProtected host (den.apply (migrate host.toPlatform den fates).1) = some (some generation.number, state) ∧
      SameState host.toAddressing state flat := by
  obtain ⟨legacy, read⟩ := loadProtected_legacy_iff.mp started
  have unselected : den currentFile = none :=
    loadCurrent_none_iff.mp (load_legacy_iff.mp legacy) currentFile (by simp [protectedFiles])
  obtain ⟨state, readAgain, holds⟩ := migrate_holds unselected migrated
  obtain ⟨rfl, wellFormed⟩ := legacyState_agrees roundTrip read readAgain
  have loaded := load_of_holds roundTrip wellFormed holds
  refine ⟨state.normal, loaded, ?_, sameState_normal host.toAddressing state⟩
  rw [loadProtected, loaded]

namespace Sample

def restedState : ProtectedState :=
  ⟨false, befriended.node.peers, .deny, [howling], ["howl"], none⟩

theorem rested_migratable : Migratable Sample.host.toPlatform rested := by
  have read : legacyState Sample.host.toPlatform rested = .ok restedState := by decide +kernel
  have small : (documents Sample.host.toPlatform restedState).toOption.any
      (fun contents => contents.bytes.all (fun bytes => bytes.length ≤ documentLimit)) = true := by
    decide +kernel
  cases documented : documents Sample.host.toPlatform restedState with
  | error => simp [documented, Except.toOption] at small
  | ok contents =>
    exact ⟨restedState, contents, read, documented, by
      simpa [documented, Except.toOption] using small⟩

end Sample

open Sample

/-- A member, a profile and its active name come through a migration. -/
theorem rested_den_migrates : ∃ generation state, load Sample.host.toPlatform (rested.apply
        (migrate Sample.host.toPlatform rested (fun _ => .durablyCommitted)).1) = .ok (.manifest generation state) ∧
      state.peers.Perm befriended.node.peers ∧ state.activeProfiles.Perm ["howl"] := by
  have legacy := (loadProtected_legacy_iff.mp rested_protected).1
  obtain ⟨generation, durable⟩ :=
    (migrate_durable_iff (load_legacy_iff.mp legacy)).mpr rested_migratable
  obtain ⟨state, loaded, _, same⟩ := migration_keeps_the_state Sample.host
    Sample.roundTrip rested (fun _ => .durablyCommitted) restedState
    generation rested_protected durable
  exact ⟨generation, state, loaded, same.peers, same.activeProfiles⟩

end Werewolf.Control
