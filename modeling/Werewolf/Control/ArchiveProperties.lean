import Werewolf.Control.HeadProperties

/-! The archive against the head. A statement is archived before the head that
counts it is saved, and only the statement after the saved head is ever written
again, so every statement the saved head counts is in the archive. -/

namespace Werewolf.Control
open Library Procedure Governance Policy
open State hiding name
open Storage hiding name

variable {permit : Liberty → Prop} {host : Host} {before after system : System}

section Archives

variable {crypto : Crypto} {den other : Den} {head next : Head} {statement : Statement}

theorem governanceArchiveName_injective {left right : UInt64}
    (same : governanceArchiveName left = governanceArchiveName right) : left = right := by
  have texts := congrArg String.toList same
  simp only [governanceArchiveName, String.toList_append, String.toList_ofList] at texts
  have padded := List.append_cancel_left (List.append_cancel_right texts)
  have values := congrArg (fun digits => Nat.ofDigitChars 10 digits 0) padded
  simp only [Nat.ofDigitChars_append, Nat.ofDigitChars_replicate_zero, Nat.mul_zero,
    Nat.ofDigitChars_ten_toDigits] at values
  exact UInt64.toNat.inj values

theorem readArchive_congr {sequence : UInt64}
    (same : other (governanceArchiveName sequence) = den (governanceArchiveName sequence)) :
    readArchive other sequence = readArchive den sequence := by
  simp only [readArchive, Storage.read, same]

structure Archived (crypto : Crypto) (den : Den) (head : Head) : Prop where
  count : head.applied.length = head.sequence.toNat + 1
  applied : ∀ index ≤ head.sequence.toNat, ∃ statement,
    readArchive den (UInt64.ofNat index) = some statement ∧
      head.applied[index]? = some (statement.core.hash crypto)
  death : head.deadAt.isSome → (archivedDeath crypto den head).isSome

theorem Archived.congr (archived : Archived crypto den head) (same : ∀ sequence : UInt64, sequence ≤ head.sequence →
      other (governanceArchiveName sequence) = den (governanceArchiveName sequence)) :
    Archived crypto other head := by
  refine ⟨archived.count, fun index within => ?_, fun dead => ?_⟩
  · have small : UInt64.ofNat index ≤ head.sequence := by
      have bound := Nat.lt_of_le_of_lt within (UInt64.toNat_lt head.sequence)
      rw [UInt64.le_iff_toNat_le, UInt64.toNat_ofNat_of_lt' bound]
      exact within
    rw [readArchive_congr (same _ small)]
    exact archived.applied index within
  · simp only [archivedDeath, readArchive_congr (same _ (UInt64.le_refl _))]
    exact archived.death dead

theorem Archived.forked (archived : Archived crypto den head) : Archived crypto den { head with forked := true } :=
  ⟨archived.count, archived.applied, archived.death⟩

theorem Archived.initial {threshold : UInt8} {keys : List Key} (written : readArchive den 0 = some statement) :
    Archived crypto den (Head.initial crypto statement.core threshold keys) := by
  refine ⟨rfl, fun index within => ?_, fun dead => (by cases dead)⟩
  obtain rfl : index = 0 := Nat.le_zero.mp within
  exact ⟨statement, written, rfl⟩

theorem BodyEffect.record {core : Core} {effect : Head}
    (effects : BodyEffect crypto head core effect) (alive : head.deadAt = none) :
    effect.applied = head.applied ∧ effect.sequence = head.sequence ∧
      (effect.deadAt.isSome → core.body = .death) := by
  cases effects with
  | death body => exact ⟨rfl, rfl, fun _ => body⟩
  | rotation | revocation | admission | activation =>
    refine ⟨rfl, rfl, fun dead => ?_⟩
    simp [alive] at dead

theorem Archived.advance {keys : List Key} {effect : Head} (archived : Archived crypto den head)
    (advances : Advances crypto head statement keys effect)
    (written : readArchive den statement.core.sequence = some statement) :
    Archived crypto den (effect.advance crypto statement.core) := by
  obtain ⟨record, _, ends⟩ := BodyEffect.record (applyBody_ok advances.body) advances.alive
  have count := archived.count
  have sequence := advances.sequence
  refine ⟨?_, fun index within => ?_, fun dead => ?_⟩
  · simp only [Head.advance, record, List.length_append, List.length_singleton]
    omega
  · simp only [Head.advance, record] at within ⊢
    by_cases last : index = statement.core.sequence.toNat
    · subst last
      rw [UInt64.ofNat_toNat]
      refine ⟨statement, written, ?_⟩
      rw [List.getElem?_append_right (by omega)]
      simp [show statement.core.sequence.toNat - head.applied.length = 0 by omega]
    · rw [List.getElem?_append_left (by omega)]
      exact archived.applied index (by omega)
  · have body := ends dead
    simp [archivedDeath, Head.advance, written, body, Option.filter]

theorem Succeeds.archived {governance following : Option Head} (succeeds : Succeeds crypto den governance following)
    (archived : ∀ head, governance = some head → Archived crypto den head) :
    ∀ head, following = some head → Archived crypto den head := by
  intro head shown
  cases succeeds with
  | same => exact archived head shown
  | fork forked =>
    cases shown
    exact (archived _ forked).forked
  | next applied written =>
    cases shown
    cases governance with
    | none =>
      obtain ⟨threshold, keys, starts, shape⟩ := applyGenesis_ok_iff.mp applied
      cases shape
      exact .initial written
    | some last =>
      obtain ⟨keys, effect, advances, rfl⟩ := applyTo_applied applied
      exact (archived last rfl).advance advances written

theorem flatFiles_notArchive {file : String} (member : file ∈ flatFiles) (sequence : UInt64) :
    file ≠ governanceArchiveName sequence := by
  have initials : ∀ file ∈ flatFiles, file.toList.head? ≠ some 'g' := by decide +kernel
  exact ne_governanceArchiveName (initials file member) sequence

theorem applied_above {pin : Option Hash} (applied : apply crypto (some head) statement pin = .ok (.applied next)) :
    ∀ sequence : UInt64, sequence ≤ head.sequence →
      governanceArchiveName sequence ≠ governanceArchiveName next.sequence := by
  obtain ⟨keys, effect, advances, rfl⟩ := applyTo_applied applied
  intro sequence below same
  have above := advances.sequence
  have equal : sequence = statement.core.sequence := governanceArchiveName_injective same
  rw [UInt64.le_iff_toNat_le, equal] at below
  omega

end Archives

section Durable

variable {den other : Den} {head : Head} {fates : Nat → Replacement}

def DurableHead (host : Host) (den : Den) (head : Head) : Prop :=
  ∃ generation state, load host.toPlatform den = .ok (.manifest generation state) ∧ state.governance = some head

theorem durableHead_of_holds (roundTrip : host.RoundTrip) {generation selected : Generation} {state : ProtectedState}
    (loaded : load host.toPlatform other = .ok (.manifest generation state))
    (holds : Holds host.toPlatform other generation state → Holds host.toPlatform den selected state)
    (governs : state.governance = some head) : DurableHead host den head := by
  obtain ⟨held, wellFormed, normal⟩ := holds_of_load roundTrip loaded
  refine ⟨selected, state.normal, load_of_holds roundTrip wellFormed (holds held), ?_⟩
  rw [normal]
  exact governs

theorem DurableHead.congr (roundTrip : host.RoundTrip) (durable : DurableHead host other head)
    (same : ∀ file ∈ protectedFiles, den file = other file) : DurableHead host den head := by
  obtain ⟨generation, state, loaded, governs⟩ := durable
  exact durableHead_of_holds roundTrip loaded (fun holds => holds.congr same) governs

theorem DurableHead.eq_of_holdsHead (roundTrip : host.RoundTrip) (durable : DurableHead host den head)
    {governance : Option Head} (holds : HoldsHead host den governance) : governance = some head := by
  obtain ⟨generation, state, loaded, governs⟩ := durable
  obtain ⟨_, stored, held, rfl⟩ := holds
  rw [← (load_governance roundTrip held loaded).2]
  exact governs

theorem DurableHead.before_commit (roundTrip : host.RoundTrip) {current : UInt64}
    {candidate : ProtectedState} (durable : DurableHead host
      (den.apply (commit host.toPlatform den current candidate fates).1) head) :
    candidate.governance = some head ∨ DurableHead host den head := by
  have shown := durable
  obtain ⟨generation, state, loaded, governs⟩ := durable
  rcases holds_after_commit roundTrip (holds_of_load roundTrip loaded).1 with
    ⟨next, held⟩ | held
  · exact .inl (shown.eq_of_holdsHead roundTrip ⟨next, candidate, held, rfl⟩)
  · exact .inr (durableHead_of_holds roundTrip loaded (fun _ => held) governs)

theorem DurableHead.before_migrate (roundTrip : host.RoundTrip)
    (durable : DurableHead host (den.apply (migrate host.toPlatform den fates).1) head) :
    DurableHead host den head := by
  have shown := durable
  obtain ⟨generation, state, loaded, governs⟩ := durable
  rcases holds_after_migrate (holds_of_load roundTrip loaded).1 with held | ⟨flat, read, held⟩
  · exact durableHead_of_holds roundTrip loaded (fun _ => held) governs
  · have headless := legacyState_governance read
    have same := shown.eq_of_holdsHead roundTrip ⟨_, flat, held, rfl⟩
    rw [headless] at same
    cases same

theorem Agreeing.durable_live (roundTrip : host.RoundTrip) (agreeing : Agreeing host system)
    (running : system.running = true) (healthy : system.node.storageDegraded = false)
    (absent : system.den tombstoneFile = none) (durable : DurableHead host system.den head) :
    system.node.governance = some head := by
  cases selected : system.node.generation with
  | none =>
    rcases agreeing.unselected running healthy selected with buried | unselected
    · simp [absent] at buried
    · obtain ⟨generation, state, loaded, _⟩ := durable
      have current := (holds_of_load roundTrip loaded).1.current
      cases unselected.symm.trans current
  | some generation =>
    rcases agreeing.held running healthy (by rw [selected]; rfl) with buried | holds
    · simp [absent] at buried
    · exact durable.eq_of_holdsHead roundTrip holds

end Durable

section Destruction

variable {den : Den} {demise : Demise} {other : Den}

theorem Residue.left_opened {residue : Residue} {data bytes : List UInt8}
    (left : residue.left data = some bytes) (opened : Opened bytes) : data = bytes := by
  cases residue with
  | untouched => exact Option.some.inj left
  | unlinked => cases left
  | scrubbed count =>
    obtain ⟨first, rest, rfl, nonzero⟩ := opened
    simp only [Residue.left, Option.some.injEq] at left
    cases count with
    | zero => simpa using left
    | succ count =>
      cases data with
      | nil => simp at left
      | cons byte data =>
        simp only [List.length_cons, Nat.add_min_add_right, List.replicate_succ,
          List.cons_append, List.cons.injEq] at left
        exact absurd left.1.symm nonzero

theorem destroyDen_opened {file : String} {bytes : List UInt8}
    (left : destroyDen demise den file = some bytes) (opened : Opened bytes) :
    den file = some bytes := by
  unfold destroyDen at left
  split at left
  · exact left
  · split at left
    · cases left
    · split at left
      · obtain ⟨data, there, kept⟩ := Option.bind_eq_some_iff.mp left
        rw [there, Residue.left_opened kept opened]
      · exact left

theorem stageOf_protected {file : String} (member : file ∈ protectedFiles) :
    stageOf file = 1 ∧ file ≠ tombstoneFile ∧ file ≠ denLock := by
  have all : ∀ file ∈ protectedFiles, stageOf file = 1 ∧ file ≠ tombstoneFile ∧ file ≠ denLock := by decide +kernel
  exact all file member

theorem stageOf_archive (sequence : UInt64) : stageOf (governanceArchiveName sequence) = 2 := by
  have notPelt : governanceArchiveName sequence ≠ peltFile :=
    (sideFiles_notArchive (by simp [sideFiles]) sequence).symm
  have initials : "security_state_".toList = 's' :: "ecurity_state_".toList ∧
      "governance_".toList = 'g' :: "overnance_".toList := by decide
  have notProtected : "security_state_".toList.isPrefixOf
      (governanceArchiveName sequence).toList = false := by
    rw [governanceArchiveName, String.toList_append, String.toList_append, initials.1, initials.2]
    simp only [List.cons_append, List.isPrefixOf_cons_cons, show ('s' == 'g') = false from rfl, Bool.false_and]
  rw [stageOf, if_neg notPelt, notProtected, if_neg (by decide)]

/-- What the end of a node may do to its generation and its archive: it scrubs and
unlinks files, and those of the archive only once the selector is gone. -/
structure Decays (before after : Den) : Prop where
  opened : ∀ file ∈ protectedFiles, ∀ bytes, Opened bytes → after file = some bytes →
    before file = some bytes
  archive : ∀ bytes, Opened bytes → after currentFile = some bytes → ∀ sequence,
    after (governanceArchiveName sequence) = before (governanceArchiveName sequence)

theorem Decays.refl (den : Den) : Decays den den := ⟨fun _ _ _ _ => id, fun _ _ _ _ => rfl⟩

theorem Decays.trans {first second third : Den} (early : Decays first second)
    (late : Decays second third) : Decays first third := by
  refine ⟨fun file member bytes opened there => ?_, fun bytes opened there sequence => ?_⟩
  · exact early.opened file member bytes opened (late.opened file member bytes opened there)
  · have selector := late.opened currentFile (by simp [protectedFiles]) bytes opened there
    exact (late.archive bytes opened there sequence).trans (early.archive bytes opened selector sequence)

theorem decays_destroyDen (demise : Demise) (den : Den) : Decays den (destroyDen demise den) := by
  refine ⟨fun _ _ _ opened left => destroyDen_opened left opened, fun _ _ left sequence => ?_⟩
  obtain ⟨stage, notTombstone, notLock⟩ :=
    stageOf_protected (show currentFile ∈ protectedFiles by simp [protectedFiles])
  have early : ¬ 1 < demise.stage := by
    intro late
    simp [destroyDen, notTombstone, notLock, stage, late] at left
  simp [destroyDen, stageOf_archive, show ¬ 2 < demise.stage by omega,
    show ¬ 2 = demise.stage by omega]

theorem decays_tombstone (den : Den) (data : List UInt8) (fate : Replacement) :
    Decays den (replaced den ⟨tombstoneFile, data⟩ fate) := by
  refine ⟨fun file member bytes _ there => ?_, fun _ _ _ sequence => ?_⟩
  · rwa [replaced_frame (stageOf_protected member).2.1] at there
  · exact replaced_frame (tombstone_notArchive sequence).symm

theorem decays_finish (environment : Environment) (tombstone : Tombstone) (den : Den) :
    Decays den (finish host environment tombstone den).1 := by
  have destroyed := decays_destroyDen environment.demise den
  unfold finish
  dsimp only
  split
  · exact destroyed
  · split
    · exact destroyed
    · exact destroyed.trans (decays_tombstone _ _ _)

theorem decays_bury (environment : Environment) (tombstone : Tombstone) (den : Den) :
    Decays den (bury host environment tombstone den) := by
  unfold bury
  split
  · exact .refl den
  · dsimp only
    split
    · exact (decays_tombstone _ _ _).trans (decays_finish _ _ _)
    · exact decays_tombstone _ _ _

theorem decays_start (environment : Environment) (den : Den) : Decays den (start host environment den).2 := by
  unfold start
  split
  · unfold atStartup
    split
    · exact .refl den
    · split
      · exact .refl den
      · split
        · exact decays_finish _ _ _
        · split
          · exact .refl den
          · exact decays_bury _ _ _
  · split
    · exact .refl den
    · split
      · exact .refl den
      · split
        · unfold deadHeadAtStartup
          split
          · exact .refl den
          · exact decays_bury _ _ _
        · exact .refl den

theorem DurableHead.before_decay (roundTrip : host.RoundTrip) {head : Head}
    (decays : Decays den other) (durable : DurableHead host other head) :
    DurableHead host den head ∧ ∀ sequence,
      other (governanceArchiveName sequence) = den (governanceArchiveName sequence) := by
  obtain ⟨generation, state, loaded, governs⟩ := durable
  have selector := (holds_of_load roundTrip loaded).1.current
  exact ⟨durableHead_of_holds roundTrip loaded (fun holds => holds.carry decays.opened) governs,
    decays.archive _ (opened_object (fun _ => Json.object_opens _ _) _) selector⟩

def Recorded (host : Host) (den : Den) : Prop :=
  ∀ head, DurableHead host den head → Archived host.toCrypto den head

theorem Recorded.of_same (roundTrip : host.RoundTrip) (recorded : Recorded host other)
    (files : ∀ file ∈ protectedFiles, den file = other file) (archive : ∀ sequence,
      den (governanceArchiveName sequence) = other (governanceArchiveName sequence)) :
    Recorded host den := by
  intro head durable
  have earlier := durable.congr roundTrip (fun file member => (files file member).symm)
  exact (recorded head earlier).congr (fun sequence _ => archive sequence)

theorem Recorded.decay (roundTrip : host.RoundTrip) (recorded : Recorded host den)
    (decays : Decays den other) : Recorded host other := by
  intro head durable
  obtain ⟨earlier, archive⟩ := durable.before_decay roundTrip decays
  exact (recorded head earlier).congr (fun sequence _ => archive sequence)

theorem System.finish_decays (system : System) (environment : Environment)
    (tombstone : Tombstone) : Decays system.den (system.finish host environment tombstone).den := by
  unfold System.finish
  split
  · exact decays_finish _ _ _
  · exact .refl _

end Destruction

section Runs

variable {publish : Node → Node} {ended : Option Storage.Outcome} {fates : Nat → Replacement}

theorem Succeeds.extends_applied {crypto : Crypto} {den : Den} {head next : Head}
    (succeeds : Succeeds crypto den (some head) (some next)) : head.applied <+: next.applied := by
  cases succeeds with
  | same => exact List.prefix_refl _
  | fork forked =>
    cases forked
    exact List.prefix_refl _
  | next applied =>
    obtain ⟨keys, effect, advances, rfl⟩ := applyTo_applied applied
    obtain ⟨record, _⟩ := BodyEffect.record (applyBody_ok advances.body) advances.alive
    simp only [Head.advance, record]
    exact List.prefix_append _ _

/-- What runs keep: the head of the Den is archived, a node that can apply
statements has its own head archived, and it shows nothing that the Den does not
count. -/
structure Keeping (host : Host) (system : System) : Prop where
  ready : system.running = true → Ready system
  agreeing : system.running = true → Agreeing host system
  recorded : Recorded host system.den
  archived : system.running = true → (system.den tombstoneFile).isSome ∨
    ∀ head, system.node.governance = some head → Archived host.toCrypto system.den head
  counted : system.running = true → ∀ head durable, system.node.governance = some head →
    DurableHead host system.den durable → head.applied <+: durable.applied

theorem Transition.idle (transition : Transition permit host before after)
    (stopped : before.running = false) : after.den = before.den ∧ after.running = false := by
  cases transition with
  | moves => exact ⟨rfl, stopped⟩
  | stored => simp [System.store, stopped]
  | committed => simp [System.commitProtected, stopped]
  | archived => simp [System.replaceFile, stopped]
  | entombed => simp [System.replaceFile, stopped]
  | destroyed => simp [System.finish, stopped]
  | migrated => simp [System.migrate, stopped]

theorem Transition.running (transition : Transition permit host before after)
    (running : after.running = true) : before.running = true := by
  rw [← Bool.not_eq_false]
  intro stopped
  exact absurd ((transition.idle stopped).2.symm.trans running) (by decide)

theorem Keeping.kept (roundTrip : host.RoundTrip) (keeping : Keeping host before)
    (transition : Transition permit host before after) (governance : after.node.governance = before.node.governance)
    (files : ∀ file ∈ protectedFiles, after.den file = before.den file)
    (archive : ∀ sequence, after.den (governanceArchiveName sequence) =
      before.den (governanceArchiveName sequence)) : Keeping host after := by
  refine ⟨fun runs => transition.ready (keeping.ready (transition.running runs)),
    fun runs => transition.agreeing roundTrip (keeping.agreeing (transition.running runs)),
    keeping.recorded.of_same roundTrip files archive, fun runs => ?_,
    fun runs head durable shown holds => ?_⟩
  · rcases keeping.archived (transition.running runs) with buried | archived
    · exact .inl (transition.entombed_stays buried)
    · exact .inr (fun head shown =>
        (archived head (governance ▸ shown)).congr (fun sequence _ => archive sequence))
  · exact keeping.counted (transition.running runs) head durable (governance ▸ shown)
      (holds.congr roundTrip (fun file member => (files file member).symm))

theorem Settles.shown {den : Den} (settles : Settles publish before den ended after)
    (running : after.running = true) :
    (ended = none ∧ after.node = publish before.node) ∨ after.node.governance = before.node.governance := by
  cases settles with
  | durable => exact .inl ⟨rfl, rfl⟩
  | unsure | refused => exact .inr rfl
  | stopped => cases running

theorem Settles.field {α : Type} {den : Den} (settles : Settles publish before den ended after) (field : Node → α)
    (blind : field { before.node with storageDegraded := true } = field before.node)
    (published : field (publish before.node) = field before.node) :
    field after.node = field before.node := by
  cases settles with
  | durable => exact published
  | unsure => exact blind
  | refused | stopped => rfl

theorem Keeping.committed (roundTrip : host.RoundTrip) (keeping : Keeping host before)
    (running : before.running = true) {generation : UInt64} {candidate : ProtectedState}
    (alive : before.node.dying = false)
    (shows : ∀ number, Shows candidate (publish { before.node with generation := number }) ∧
      (publish { before.node with generation := number }).generation = number)
    (succeeds : Succeeds host.toCrypto before.den before.node.governance candidate.governance)
    (transition : Transition permit host before after)
    (settles : Settles (fun node => publish { node with generation := (System.transaction
        (commit host.toPlatform before.den generation candidate fates).2).1 }) before
      (before.den.apply (commit host.toPlatform before.den generation candidate fates).1)
      (System.transaction (commit host.toPlatform before.den generation candidate fates).2).2
      after) : Keeping host after := by
  have own := (keeping.archived running).resolve_left
    (fun buried => absurd (alive.symm.trans (keeping.ready running buried)) (by decide))
  have archive (sequence : UInt64) : after.den (governanceArchiveName sequence) =
      before.den (governanceArchiveName sequence) := by
    rw [settles.den]
    exact commit_frame _ _ _ _ (fun member => protectedFiles_notArchive member sequence rfl)
  have candidates (head : Head) (given : candidate.governance = some head) : Archived host.toCrypto after.den head :=
    (succeeds.archived own head given).congr (fun sequence _ => archive sequence)
  have earlier (head : Head) (durable : DurableHead host after.den head) :
      candidate.governance = some head ∨ DurableHead host before.den head := by
    rw [settles.den] at durable
    exact durable.before_commit roundTrip
  refine ⟨fun runs => transition.ready (keeping.ready (transition.running runs)),
    fun runs => transition.agreeing roundTrip (keeping.agreeing (transition.running runs)),
    fun head durable => ?_, fun runs => .inr (fun head shown => ?_),
    fun runs head durable shown holds => ?_⟩
  · rcases earlier head durable with new | old
    · exact candidates head new
    · exact (keeping.recorded head old).congr (fun sequence _ => archive sequence)
  · rcases settles.shown runs with ⟨_, published⟩ | same
    · rw [published, (shows _).1.governance] at shown
      exact candidates head shown
    · exact (own head (same ▸ shown)).congr (fun sequence _ => archive sequence)
  · rcases settles.shown runs with ⟨done, published⟩ | same
    · rw [published, (shows _).1.governance] at shown
      obtain ⟨next, committed⟩ := transaction_durable_iff.mp done
      have stored := holds_of_committed committed
      rw [settles.den] at holds
      have given := holds.eq_of_holdsHead roundTrip ⟨next, candidate, stored, rfl⟩
      rw [Option.some.inj (shown.symm.trans given)]
    · rw [same] at shown
      rcases earlier durable holds with new | old
      · rw [shown, new] at succeeds
        exact succeeds.extends_applied
      · exact keeping.counted running head durable shown old

theorem Keeping.archiving (roundTrip : host.RoundTrip) (keeping : Keeping host before)
    (running : before.running = true) {statement : Statement} {pin : Option Hash} {next : Head} {fate : Replacement}
    (alive : before.node.dying = false ∧ before.node.storageDegraded = false)
    (applied : apply host.toCrypto before.node.governance statement pin = .ok (.applied next))
    (transition : Transition permit host before after) (governance : after.node.governance = before.node.governance)
    (den : after.den = replaced before.den ⟨governanceArchiveName next.sequence, statement.encode⟩ fate) :
    Keeping host after := by
  have unburied (buried : (before.den tombstoneFile).isSome) : False :=
    absurd (alive.1.symm.trans (keeping.ready running buried)) (by decide)
  have own := (keeping.archived running).resolve_left unburied
  have files (file : String) (member : file ∈ protectedFiles) : after.den file = before.den file := by
    rw [den]
    exact replaced_frame (protectedFiles_notArchive member _)
  have earlier (head : Head) (durable : DurableHead host after.den head) : DurableHead host before.den head :=
    durable.congr roundTrip (fun file member => (files file member).symm)
  have spared (head : Head) (shown : before.node.governance = some head) : Archived host.toCrypto after.den head := by
    rw [shown] at applied
    refine (own head shown).congr (fun sequence below => ?_)
    rw [den]
    exact replaced_frame (applied_above applied sequence below)
  refine ⟨fun runs => transition.ready (keeping.ready (transition.running runs)),
    fun runs => transition.agreeing roundTrip (keeping.agreeing (transition.running runs)),
    fun head durable => spared head ?_, fun runs => .inr (fun head shown => spared head ?_),
    fun runs head durable shown holds => ?_⟩
  · exact (keeping.agreeing running).durable_live roundTrip running alive.2
      (by simpa using unburied) (earlier head durable)
  · rw [← governance]
    exact shown
  · exact keeping.counted running head durable (governance ▸ shown) (earlier durable holds)

theorem Keeping.destroyed (roundTrip : host.RoundTrip) (keeping : Keeping host before) {environment : Environment}
    {tombstone : Tombstone} (transition : Transition permit host before (before.finish host environment tombstone))
    (buried : (before.den tombstoneFile).isSome) :
    Keeping host (before.finish host environment tombstone) := by
  refine ⟨fun runs => transition.ready (keeping.ready (transition.running runs)),
    fun runs => transition.agreeing roundTrip (keeping.agreeing (transition.running runs)),
    keeping.recorded.decay roundTrip (before.finish_decays environment tombstone),
    fun _ => .inl (transition.entombed_stays buried), fun runs head durable shown holds => ?_⟩
  rw [finish_node] at shown
  exact keeping.counted (transition.running runs) head durable shown
    (holds.before_decay roundTrip (before.finish_decays environment tombstone)).1

theorem Keeping.migrated (roundTrip : host.RoundTrip) (keeping : Keeping host before)
    (running : before.running = true) (flat : before.node.generation = none)
    (transition : Transition permit host before after) (governance : after.node.governance = before.node.governance)
    (den : after.den = before.den.apply (Storage.migrate host.toPlatform before.den fates).1) :
    Keeping host after := by
  have headless := (keeping.agreeing running).flat flat
  refine ⟨fun runs => transition.ready (keeping.ready (transition.running runs)),
    fun runs => transition.agreeing roundTrip (keeping.agreeing (transition.running runs)),
    fun head durable => ?_, fun _ => .inr (fun head shown => ?_),
    fun _ head _ shown => ?_⟩
  · rw [den] at durable ⊢
    refine (keeping.recorded head (durable.before_migrate roundTrip)).congr (fun sequence _ => ?_)
    exact migrate_frame _ _ (fun member => protectedFiles_notArchive member sequence rfl)
  · cases (governance.trans headless).symm.trans shown
  · cases (governance.trans headless).symm.trans shown

theorem Transition.keeping (roundTrip : host.RoundTrip)
    (transition : Transition permit host before after) (keeping : Keeping host before) :
    Keeping host after := by
  cases running : before.running with
  | false =>
    obtain ⟨den, stopped⟩ := transition.idle running
    have still {claim : Prop} (runs : after.running = true) : claim :=
      absurd (stopped.symm.trans runs) (by decide)
    exact ⟨still, still, den ▸ keeping.recorded, still, still⟩
  | true =>
    have step := transition
    cases transition with
    | moves moved retains =>
      exact keeping.kept roundTrip step retains.governance (fun _ _ => rfl) (fun _ => rfl)
    | stored fares moved alive written =>
      rename_i write fate publish
      rcases store_cases before write fate publish with same | settles
      · rw [same]
        exact keeping
      · have published : (publish before.node).governance = before.node.governance := by
          rcases written with ⟨_, retains, _⟩ | ⟨_, _, _, governance⟩
          · exact retains.governance
          · exact governance
        refine keeping.kept roundTrip step (settles.field Node.governance rfl published)
          (fun file member => ?_) (fun sequence => ?_)
        all_goals
          rw [settles.den]
          refine replaced_frame (fun same => ?_)
          rcases written with ⟨side, _⟩ | ⟨flat, _⟩
        · exact sideFiles_unprotected (same ▸ side) member
        · exact flatFiles_unprotected (same ▸ flat) member
        · exact sideFiles_notArchive side sequence same.symm
        · exact flatFiles_notArchive flat sequence same.symm
    | committed fares alive selected moved shows sound succeeds =>
      rcases commitProtected_cases host before _ _ _ _ with same | settles
      · rw [same]
        exact keeping
      · exact keeping.committed roundTrip running alive.1 shows succeeds step settles
    | archived fares alive applied =>
      rcases replaceFile_cases before _ _ with same | noted
      · rw [same]
        exact keeping
      · exact keeping.archiving roundTrip running alive applied step (by rw [noted]; rfl) (by rw [noted]; rfl)
    | entombed =>
      rcases replaceFile_cases before _ _ with same | noted
      · rw [same]
        exact keeping
      · refine keeping.kept roundTrip step (by rw [noted]; rfl) (fun file member => ?_) (fun sequence => ?_)
        · rw [noted]
          exact replaced_frame (stageOf_protected member).2.1
        · rw [noted]
          exact replaced_frame (tombstone_notArchive sequence).symm
    | destroyed fares dying buried => exact keeping.destroyed roundTrip step buried
    | migrated fares alive flat =>
      rcases migrate_settles host before _ with same | settles
      · rw [same]
        exact keeping
      · exact keeping.migrated roundTrip running flat step (settles.field Node.governance rfl rfl) settles.den

theorem durableHead_of_started (roundTrip : host.RoundTrip) {den : Den} {node : Node} {head : Head}
    (loaded : loadStartupState host den = some node) (shown : node.governance = some head) :
    DurableHead host den head := by
  have agreeing := agreeing_started roundTrip loaded
  obtain ⟨state, found, _, _, governance, _⟩ := loadStartupState_some loaded
  unfold loadProtected at found
  split at found
  · rename_i generation stored loads
    obtain ⟨_, rfl⟩ := Prod.mk.inj (Option.some.inj found)
    exact ⟨generation, stored, loads, governance.symm.trans shown⟩
  · obtain ⟨flat, _, same⟩ := Option.map_eq_some_iff.mp found
    cases (agreeing.flat (Prod.mk.inj same).1.symm).symm.trans shown
  · cases found

theorem DurableHead.unique {den : Den} {head other : Head} (durable : DurableHead host den head)
    (again : DurableHead host den other) : head = other := by
  obtain ⟨generation, state, loaded, governs⟩ := durable
  obtain ⟨_, _, reloaded, regoverns⟩ := again
  cases loaded.symm.trans reloaded
  exact Option.some.inj (governs.symm.trans regoverns)

theorem keeping_started (roundTrip : host.RoundTrip) {den : Den} {node : Node}
    (recorded : Recorded host den) (loaded : loadStartupState host den = some node)
    (absent : den tombstoneFile = none) : Keeping host ⟨node, den, true, false⟩ := by
  refine ⟨fun _ present => ?_, fun _ => agreeing_started roundTrip loaded, recorded,
    fun _ => .inr (fun head shown => ?_), fun _ head durable shown holds => ?_⟩
  · simp [absent] at present
  · exact recorded head (durableHead_of_started roundTrip loaded shown)
  · rw [(durableHead_of_started roundTrip loaded shown).unique holds]

theorem keeping_stopped (stopped : system.running = false) (recorded : Recorded host system.den) :
    Keeping host system := by
  have still {claim : Prop} (runs : system.running = true) : claim :=
    absurd (stopped.symm.trans runs) (by decide)
  exact ⟨still, still, recorded, still, still⟩

theorem keeping_step (roundTrip : host.RoundTrip) (event : Event) (keeping : Keeping host system) :
    Keeping host (step host system event) := by
  refine step_preserves (Keeping host) (fun _ _ _ _ => permits_anything)
    (fun _ _ transition => transition.keeping roundTrip) ?_ ?_ ?_ keeping.ready keeping
  · rintro ⟨ready, agreeing, recorded, archived, counted⟩
    exact ⟨ready, fun runs => ⟨(agreeing runs).flat, (agreeing runs).unselected,
      (agreeing runs).held⟩, recorded, archived, counted⟩
  · intro _ _ _ loaded absent _
    exact keeping_started roundTrip keeping.recorded loaded absent
  · intro _ _ _
    exact keeping_stopped rfl (keeping.recorded.decay roundTrip (decays_start _ _))

theorem recordsOf_counted {crypto : Crypto} {den : Den} {head : Head} {statement : Statement}
    {sequences : List Nat} (served : statement ∈ recordsOf crypto den head sequences) :
    ∃ sequence, readArchive den (UInt64.ofNat sequence) = some statement ∧
      head.applied[sequence]? = some (statement.core.hash crypto) := by
  induction sequences with
  | nil => cases served
  | cons sequence rest ih =>
    simp only [recordsOf] at served
    split at served
    · cases served
    · rename_i archived found
      split at served
      · rename_i counted
        rcases List.mem_cons.mp served with rfl | later
        · exact ⟨sequence, found, counted⟩
        · exact ih later
      · cases served

/-- In every run, whatever fails or stops in it, the archive has the statement of
every sequence number that the head of the Den counts, with the hash the head
has for it. Peers are served none that this head does not count, and a dead head
has its death statement. -/
theorem archive_has_durable_head (roundTrip : host.RoundTrip) {first : System}
    (stopped : first.running = false) (recorded : Recorded host first.den) (events : List Event)
    {head : Head} (durable : DurableHead host (run (step host) first events).den head) :
    let system := run (step host) first events
    (∀ index ≤ head.sequence.toNat, ∃ statement, readArchive system.den (UInt64.ofNat index) = some statement ∧
        head.applied[index]? = some (statement.core.hash host.toCrypto)) ∧
    (system.running = true → ∀ headHash count, ∀ statement ∈
      governanceRecords host.toCrypto system.den system.node.governance headHash count,
      ∃ index, readArchive system.den (UInt64.ofNat index) = some statement ∧
        head.applied[index]? = some (statement.core.hash host.toCrypto)) ∧
    (head.deadAt.isSome → (archivedDeath host.toCrypto system.den head).isSome) := by
  have keeping : Keeping host (run (step host) first events) :=
    run_invariant (Keeping host) (fun _ event => keeping_step roundTrip event)
      (keeping_stopped stopped recorded) events
  have archived := keeping.recorded head durable
  refine ⟨archived.applied, fun runs headHash count statement served => ?_, archived.death⟩
  unfold governanceRecords at served
  split at served
  · cases served
  · rename_i live shown
    split at served
    · cases served
    · obtain ⟨index, found, counted⟩ := recordsOf_counted served
      obtain ⟨later, extended⟩ := keeping.counted runs live head shown durable
      refine ⟨index, found, ?_⟩
      rw [← extended, List.getElem?_append_left]
      · exact counted
      · exact (List.getElem?_eq_some_iff.mp counted).1

theorem restart_living (roundTrip : host.RoundTrip) {head : Head} (absent : system.den tombstoneFile = none)
    (durable : DurableHead host system.den head) (alive : head.deadAt = none) (environment : Environment) :
    (step host system (.restart environment)).den = system.den := by
  simp only [step, start, absent]
  cases loaded : loadStartupState host system.den with
  | none => rfl
  | some node =>
    dsimp only
    cases shown : node.governance with
    | none => rfl
    | some other =>
      have same := (durableHead_of_started roundTrip loaded shown).unique durable
      simp [same, alive]

end Runs

namespace Sample

section Founding

variable {host : Host} {statement : Statement} {threshold : UInt8} {keys : List Key}

def founded (host : Host) (statement : Statement) (threshold : UInt8) (keys : List Key) : Den :=
  (holding host (bare false (some (Head.initial host.toCrypto statement.core threshold keys)))).apply
    [⟨governanceArchiveName 0, statement.encode⟩]

theorem founded_durable (roundTrip : host.RoundTrip)
    (checked : Governance.check (Head.initial host.toCrypto statement.core threshold keys) = true)
    (few : (Head.initial host.toCrypto statement.core threshold keys).entries ≤ 600) :
    DurableHead host (founded host statement threshold keys)
      (Head.initial host.toCrypto statement.core threshold keys) := by
  have holds := holding_holds (bare_storable host false checked few)
  have kept : Holds host.toPlatform (founded host statement threshold keys) firstGeneration
      (bare false (some (Head.initial host.toCrypto statement.core threshold keys))) := by
    refine holds.congr (fun file member => ?_)
    simp [founded, Den.apply, protectedFiles_notArchive member]
  refine ⟨_, _, load_of_holds roundTrip ?_ kept, rfl⟩
  intro fingerprint endpoints found
  simp at found

theorem founded_recorded (roundTrip : host.RoundTrip) (encodable : Encodable statement)
    (checked : Governance.check (Head.initial host.toCrypto statement.core threshold keys) = true)
    (few : (Head.initial host.toCrypto statement.core threshold keys).entries ≤ 600) :
    Recorded host (founded host statement threshold keys) := by
  intro head durable
  rw [durable.unique (founded_durable roundTrip checked few)]
  exact .initial (readArchive_written encodable _ 0)

theorem founded_restarts (roundTrip : host.RoundTrip)
    (checked : Governance.check (Head.initial host.toCrypto statement.core threshold keys) = true)
    (few : (Head.initial host.toCrypto statement.core threshold keys).entries ≤ 600) (environment : Environment) :
    DurableHead host (run (step host) (stopped (founded host statement threshold keys)) [.restart environment]).den
      (Head.initial host.toCrypto statement.core threshold keys) := by
  have durable := founded_durable roundTrip checked few
  have absent : founded host statement threshold keys tombstoneFile = none := by
    simp [founded, Den.apply, tombstone_notArchive, holding_absent tombstone_unprotected]
  rw [show run (step host) (stopped (founded host statement threshold keys))
      [.restart environment] = step host (stopped (founded host statement threshold keys))
      (.restart environment) from rfl, restart_living roundTrip absent durable rfl]
  exact durable

end Founding

def founding : Statement := Governance.Sample.signedWith 0 Governance.Sample.genesis

theorem founding_facts : Governance.check (Head.initial Sample.host.toCrypto founding.core 7 Governance.Sample.keys) =
        true ∧
      (Head.initial Sample.host.toCrypto founding.core 7 Governance.Sample.keys).entries ≤ 600 ∧
      Statement.decode founding.encode = .ok founding ∧
      founding.encode.length ≤ maxStatementLen := by
  decide +kernel

end Sample

open Sample

/-- A node that has applied its genesis has it in its archive after a start. -/
theorem founded_archive_has_genesis : ∃ statement, readArchive (run (step Sample.host) (Sample.stopped
        (founded Sample.host founding 7 Governance.Sample.keys))
        [.restart environment]).den (UInt64.ofNat 0) = some statement ∧
      (Head.initial Sample.host.toCrypto founding.core 7 Governance.Sample.keys).applied[0]? =
          some (statement.core.hash Sample.host.toCrypto) := by
  obtain ⟨checked, few, decoded, fits⟩ := founding_facts
  have recorded : Recorded Sample.host (founded Sample.host founding 7 Governance.Sample.keys) :=
    founded_recorded Sample.roundTrip ⟨decoded, fits⟩ checked few
  have durable : DurableHead Sample.host (run (step Sample.host) (Sample.stopped
      (founded Sample.host founding 7 Governance.Sample.keys))
      [.restart environment]).den
      (Head.initial Sample.host.toCrypto founding.core 7 Governance.Sample.keys) :=
    founded_restarts Sample.roundTrip checked few environment
  have stopped : (Sample.stopped (founded Sample.host founding 7 Governance.Sample.keys)).running = false := rfl
  exact (archive_has_durable_head Sample.roundTrip stopped recorded [.restart environment]
    durable).1 0 (Nat.zero_le _)

end Werewolf.Control
