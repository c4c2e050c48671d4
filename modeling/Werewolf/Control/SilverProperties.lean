import Werewolf.Control.ArchiveProperties

/-! The Silver bit of the Den against the status. Most commands commit the lock of
the gate as the Silver bit, and the network can lock the gate too. While nothing
but Silver locks the gate of a node that commits, bit and status agree, and a
start brings back the Silver that the operator left. -/

namespace Werewolf.Control
open Library Procedure Governance Policy
open State hiding name
open Storage hiding name

variable {permit : Liberty → Prop} {host : Host} {before after system : System}

section Agreement

def BitAgrees (host : Host) (system : System) : Prop :=
  ∀ bit, selectedSilver host.toPlatform system.den = some bit → (bit = true ↔ system.node.silver = .active)

theorem BitAgrees.carry (roundTrip : host.RoundTrip) (agrees : BitAgrees host before)
    (silver : after.node.silver = before.node.silver)
    (kept : ∀ file ∈ protectedFiles, ∀ bytes, Opened bytes → after.den file = some bytes →
      before.den file = some bytes) : BitAgrees host after := by
  intro bit selected
  rw [silver]
  exact agrees bit (selectedSilver_carry roundTrip selected kept)

theorem bitAgrees_of_holds (roundTrip : host.RoundTrip) {generation : Generation}
    {state : ProtectedState} (holds : Holds host.toPlatform system.den generation state)
    (bit : state.silverLocked = decide (system.node.silver = .active)) :
    BitAgrees host system := by
  intro found selected
  rw [selectedSilver_of_holds roundTrip holds, Option.some.injEq] at selected
  rw [← selected, bit, decide_eq_true_eq]

/-- A manifest-enabled system whose Den says what its status says. Its Den holds
a generation until it is destroyed, and whatever bars its node locks the gate. -/
structure Attuned (host : Host) (system : System) : Prop where
  ready : system.running = true → Ready system
  barred : system.running = true → Barred host.toExternal system.node →
    system.node.gate.locked = true
  selected : system.node.generation.isSome
  agrees : BitAgrees host system
  held : (system.den tombstoneFile).isSome ∨
    ∃ generation state, Holds host.toPlatform system.den generation state

theorem Attuned.kept (roundTrip : host.RoundTrip) (attuned : Attuned host before)
    (transition : Transition permit host before after) (silver : after.node.silver = before.node.silver)
    (generation : after.node.generation = before.node.generation)
    (files : ∀ file ∈ protectedFiles, after.den file = before.den file) : Attuned host after := by
  refine ⟨fun runs => transition.ready (attuned.ready (transition.running runs)),
    fun runs => transition.moved.barred (attuned.barred (transition.running runs)),
    generation ▸ attuned.selected,
    attuned.agrees.carry roundTrip silver (fun file member _ _ there => files file member ▸ there),
    ?_⟩
  rcases attuned.held with buried | ⟨number, state, holds⟩
  · exact .inl (transition.entombed_stays buried)
  · exact .inr ⟨number, state, holds.congr files⟩

end Agreement

section Transitions

def attuning (command : Command) : Liberty → Prop
  | .fences => command.recommits = false
  | .recommits => command.recommits = true
  | .revives => command.recommits = false
  | .releases => command.recommits = false
  | .supersedes => False
  | .fares fate => fate = .durablyCommitted
  | _ => True

def SilverLocks (command : Command) (node : Node) : Prop :=
  command.recommits = true → node.dying = false → node.gate.locked = true → node.silver = .active

variable {command : Command}

theorem Transition.silverLocks (transition : Transition (attuning command) host before after)
    (locks : SilverLocks command before.node) : SilverLocks command after.node := by
  intro recommits alive locked
  have unfenced : ¬ attuning command .fences := fun fences =>
    absurd (recommits.symm.trans fences) (by decide)
  have living : before.node.dying = false := by
    rw [← Bool.not_eq_true]
    intro dying
    rcases transition.dying dying with still | ⟨revives, _⟩
    · exact absurd (alive.symm.trans still) (by decide)
    · exact absurd (recommits.symm.trans revives) (by decide)
  rcases transition.moved.locks locked with was | active | dying | fences
  · rcases transition.moved.releases (locks recommits living was) with active | releases
    · exact active
    · exact absurd (recommits.symm.trans releases) (by decide)
  · exact active
  · exact absurd (alive.symm.trans dying) (by decide)
  · exact absurd fences unfenced

theorem Attuned.committed (roundTrip : host.RoundTrip) (attuned : Attuned host before)
    {generation : UInt64} {candidate : ProtectedState} {fates : Nat → Replacement}
    {publish : Node → Node} (healthy : ∀ index, fates index = .durablyCommitted)
    (alive : before.node.dying = false) (running : before.running = true)
    (shows : ∀ number, Shows candidate (publish { before.node with generation := number }) ∧
      (publish { before.node with generation := number }).generation = number)
    (bit : ∀ number, candidate.silverLocked =
      decide ((publish { before.node with generation := number }).silver = .active))
    (transition : Transition permit host before after)
    (settles : Settles (fun node => publish { node with generation := (System.transaction
        (commit host.toPlatform before.den generation candidate fates).2).1 }) before
      (before.den.apply (commit host.toPlatform before.den generation candidate fates).1)
      (System.transaction (commit host.toPlatform before.den generation candidate fates).2).2
      after) : Attuned host after := by
  have den := settles.den
  rcases commit_healthy host.toPlatform healthy before.den generation candidate with
    ⟨error, refused⟩ | ⟨next, durable⟩
  · have effect := not_tookEffect_of_notCommitted refused
    have same : after = { before with den := after.den } := by
      rw [refused] at settles
      cases settles
      rfl
    have kept : ∀ number state, Holds host.toPlatform before.den number state →
        Holds host.toPlatform after.den number state := by
      intro number state holds
      rw [den]
      exact holds_of_not_tookEffect roundTrip effect holds
    have unburied : ¬ (before.den tombstoneFile).isSome := fun buried =>
      absurd (alive.symm.trans (attuned.ready running buried)) (by decide)
    obtain ⟨number, state, holds⟩ := attuned.held.resolve_left unburied
    have agrees := attuned.agrees _ (selectedSilver_of_holds roundTrip holds)
    refine ⟨fun runs => transition.ready (attuned.ready (transition.running runs)),
      fun runs => transition.moved.barred (attuned.barred (transition.running runs)), ?_,
      bitAgrees_of_holds roundTrip (kept number state holds) ?_, .inr ⟨_, _, kept _ _ holds⟩⟩
    · rw [same]
      exact attuned.selected
    · rw [same, Bool.eq_iff_iff, decide_eq_true_eq]
      exact agrees
  · have published : after.node = publish { before.node with generation := some next.number } := by
      rw [durable] at settles
      cases settles
      rfl
    have holds : Holds host.toPlatform after.den next candidate := by
      rw [den]
      exact holds_of_committed durable
    refine ⟨fun runs => transition.ready (attuned.ready (transition.running runs)),
      fun runs => transition.moved.barred (attuned.barred (transition.running runs)), ?_,
      bitAgrees_of_holds roundTrip holds ?_, .inr ⟨_, _, holds⟩⟩
    · rw [published, (shows _).2]
      rfl
    · rw [published]
      exact bit _

theorem Attuned.destroyed (roundTrip : host.RoundTrip) (attuned : Attuned host before) {environment : Environment}
    {tombstone : Tombstone} (transition : Transition permit host before (before.finish host environment tombstone))
    (buried : (before.den tombstoneFile).isSome) :
    Attuned host (before.finish host environment tombstone) := by
  refine ⟨fun runs => transition.ready (attuned.ready (transition.running runs)),
    fun runs => transition.moved.barred (attuned.barred (transition.running runs)),
    by rw [finish_node]; exact attuned.selected,
    attuned.agrees.carry roundTrip (by rw [finish_node]) (before.finish_decays environment tombstone).opened,
    .inl (transition.entombed_stays buried)⟩

theorem Transition.attuned (roundTrip : host.RoundTrip) (transition : Transition (attuning command) host before after)
    (attuned : Attuned host before) (locks : SilverLocks command before.node) : Attuned host after := by
  have step := transition
  cases transition with
  | moves moved retains =>
    exact attuned.kept roundTrip step retains.silver retains.generation (fun _ _ => rfl)
  | stored fares moved alive written =>
    rename_i write fate publish
    rcases written with ⟨side, retains, _⟩ | ⟨_, absent, _⟩
    · rcases store_cases before write fate publish with same | settles
      · rw [same]
        exact attuned
      · refine attuned.kept roundTrip step (settles.field Node.silver rfl retains.silver)
          (settles.field Node.generation rfl retains.generation) (fun file member => ?_)
        rw [settles.den]
        exact replaced_frame (fun same => sideFiles_unprotected (same ▸ side) member)
    · have selected := attuned.selected
      rw [absent] at selected
      cases selected
  | committed fares alive selected moved shows sound succeeds bit =>
    cases running : before.running with
    | false =>
      simp only [System.commitProtected, running]
      exact attuned
    | true =>
      rcases commitProtected_cases host before _ _ _ _ with same | settles
      · rw [same]
        exact attuned
      · refine attuned.committed roundTrip fares alive.1 running shows (fun number => ?_) step settles
        rcases bit number with agrees | ⟨recommits, locked, silver⟩ | supersedes
        · exact agrees
        · rw [locked, silver, Bool.eq_iff_iff, decide_eq_true_eq]
          exact ⟨locks recommits alive.1, fun active => attuned.barred running (.inl active)⟩
        · cases supersedes
  | archived fares alive applied =>
    rcases replaceFile_cases before _ _ with same | noted
    · rw [same]
      exact attuned
    · refine attuned.kept roundTrip step (by rw [noted]; rfl) (by rw [noted]; rfl) (fun file member => ?_)
      rw [noted]
      exact replaced_frame (protectedFiles_notArchive member _)
  | entombed =>
    rcases replaceFile_cases before _ _ with same | noted
    · rw [same]
      exact attuned
    · refine attuned.kept roundTrip step (by rw [noted]; rfl) (by rw [noted]; rfl) (fun file member => ?_)
      rw [noted]
      exact replaced_frame (stageOf_protected member).2.1
  | destroyed fares dying buried => exact attuned.destroyed roundTrip step buried
  | migrated fares alive flat =>
    have selected := attuned.selected
    rw [flat] at selected
    cases selected

end Transitions

section Runs

def Smooth : Event → Prop
  | .command _ environments =>
      ∀ index, (environments index).Fares (fun liberty =>
        ∀ fate, liberty = .fares fate → fate = .durablyCommitted)
  | _ => True

/-- The step finds the gate locked by nothing but Silver if it commits that lock.
It applies no statement that excludes the node, unless Silver is active, and the
gate can be opened when Silver is reset. -/
def LocksBySilver (host : Host) (system : System) : Event → Prop
  | .command command environments =>
      (command = .silverReset → ¬ Superseded host system.node) ∧
      (command.recommits = true → system.node.gate.locked = true → system.node.silver = .active) ∧
      EachStatement host (fun _ system statement pin => ∀ next,
        Applies host system statement pin next → Fences host system next →
          system.node.silver = .active) environments system.fresh command
  | _ => True

theorem permits_attuning {command : Command} {environments : Nat → Environment}
    (smooth : Smooth (.command command environments))
    (locks : LocksBySilver host system (.command command environments)) :
    Permits (attuning command) host environments system.fresh command where
  fares index := by
    obtain ⟨documents, archive, states, tombstone, completion⟩ := smooth index
    exact ⟨fun place => documents place _ rfl, archive _ rfl, fun place => states place _ rfl,
      tombstone _ rfl, completion _ rfl⟩
  trigger same := by rw [same]; rfl
  reset same := ⟨trivial, by rw [same]; rfl, fun superseded => absurd superseded (locks.1 same)⟩
  retire confirm same := ⟨by rw [same]; rfl, fun _ => trivial⟩
  recommits := id
  statements _ _ := locks.2.2.mono (fun _ _ _ _ excluded next applies =>
    ⟨fun _ => trivial, fun fences => .inl (excluded next applies fences), fun _ _ => trivial⟩)

theorem attuned_started (roundTrip : host.RoundTrip) {node : Node} (attuned : Attuned host system)
    (loaded : loadStartupState host system.den = some node) (absent : system.den tombstoneFile = none)
    (living : ∀ head, node.governance = some head → head.deadAt = none) :
    Attuned host ⟨node, system.den, true, false⟩ ∧ (node.silver = .active ↔ system.node.silver = .active) := by
  obtain ⟨generation, state, holds⟩ := attuned.held.resolve_left (by simp [absent])
  obtain ⟨stored, found, _, _, _, _, silver, _⟩ := loadStartupState_some loaded
  unfold loadProtected at found
  split at found
  · rename_i number other loads
    obtain ⟨numbered, rfl⟩ := Prod.mk.inj (Option.some.inj found)
    have held := (holds_of_load roundTrip loads).1
    have agrees := attuned.agrees _ (selectedSilver_of_holds roundTrip held)
    have shown : node.silver = .active ↔ other.silverLocked = true := by
      rw [silver]
      cases other.silverLocked <;> simp
    refine ⟨⟨fun _ present => ?_, fun _ => started_locked loaded living, ?_,
      bitAgrees_of_holds roundTrip held ?_, .inr ⟨_, _, held⟩⟩, shown.trans agrees⟩
    · simp [absent] at present
    · dsimp only
      rw [← numbered]
      rfl
    · rw [Bool.eq_iff_iff, decide_eq_true_eq]
      exact shown.symm
  · rename_i legacy
    have unselected := loadCurrent_none_iff.mp (load_legacy_iff.mp legacy) currentFile (by simp [protectedFiles])
    cases unselected.symm.trans holds.current
  · cases found

theorem attuned_unstarted (roundTrip : host.RoundTrip) (attuned : Attuned host system) (environment : Environment) :
    Attuned host ⟨system.node, (start host environment system.den).2, false, false⟩ := by
  refine ⟨fun runs => (by cases runs), fun runs => (by cases runs), attuned.selected,
    attuned.agrees.carry roundTrip rfl (decays_start environment system.den).opened, ?_⟩
  rcases start_den environment system.den with same | buried
  · dsimp only
    rw [same]
    exact attuned.held
  · exact .inl buried

theorem attuned_step (roundTrip : host.RoundTrip) {event : Event} (smooth : Smooth event)
    (locks : LocksBySilver host system event) (attuned : Attuned host system) :
    Attuned host (step host system event) := by
  have fresh {system : System} (attuned : Attuned host system) : Attuned host system.fresh :=
    ⟨attuned.ready, attuned.barred, attuned.selected, attuned.agrees, attuned.held⟩
  cases event with
  | command command environments =>
    have holds : Attuned host (step host system (.command command environments)) ∧
        SilverLocks command (step host system (.command command environments)).node := by
      refine step_preserves (fun system => Attuned host system ∧ SilverLocks command system.node)
        (fun other others same _ => ?_)
        (fun before after (transition : Transition (attuning command) host before after) holds => ?_)
        (fun holds => ⟨fresh holds.1, holds.2⟩) (fun _ _ same => by cases same)
        (fun _ same => by cases same) attuned.ready
        ⟨attuned, fun recommits _ locked => locks.2.1 recommits locked⟩
      · cases same
        exact permits_attuning smooth locks
      · exact ⟨transition.attuned roundTrip holds.1 holds.2, transition.silverLocks holds.2⟩
    exact holds.1
  | inbound operation =>
    simp only [step]
    split
    · have transition : Transition (attuning .silverTrigger) host system _ :=
        transition_inbound operation system
      exact transition.attuned roundTrip attuned (fun recommits => by cases recommits)
    · exact attuned
  | restart environment =>
    have unstarted := attuned_unstarted roundTrip attuned environment
    simp only [step]
    cases result : start host environment system.den with
    | mk node den =>
      rw [result] at unstarted
      cases node with
      | none => exact unstarted
      | some node =>
        obtain ⟨rfl, absent, loaded, living⟩ := start_some result
        exact (attuned_started roundTrip attuned loaded absent living).1

theorem Reachable.attuned (roundTrip : host.RoundTrip) (reachable : Reachable host system)
    (running : system.running = true) (healthy : system.node.storageDegraded = false)
    (selected : system.node.generation.isSome) (agrees : BitAgrees host system) :
    Attuned host system := by
  refine ⟨reachable.ready, fun _ barred => barred_locked reachable running barred, selected, agrees, ?_⟩
  rcases (reachable.agreeing roundTrip running).held running healthy selected with
    buried | ⟨generation, state, holds, _⟩
  · exact .inl buried
  · exact .inr ⟨generation, state, holds⟩

/-- In every run of a manifest-enabled node from a state in which they agree, whose
writes all succeed and whose steps commit no lock but that of Silver: the bit of
the selected generation is set exactly while the status says that Silver is
active, there is one unless the Den is being destroyed, and a start leaves the
status as it is. -/
theorem silver_bit_follows_status (roundTrip : host.RoundTrip) (reachable : Reachable host system)
    (running : system.running = true) (healthy : system.node.storageDegraded = false)
    (selected : system.node.generation.isSome) (agrees : BitAgrees host system) (events : List Event)
    (smooth : ∀ event ∈ events, Smooth event) (locks : ∀ before event after, events = before ++ event :: after →
      LocksBySilver host (run (step host) system before) event) :
    let last := run (step host) system events
    BitAgrees host last ∧
    ((last.den tombstoneFile).isSome ∨ (selectedSilver host.toPlatform last.den).isSome) ∧
    ∀ environment node den, start host environment last.den = (some node, den) →
      (node.silver = .active ↔ last.node.silver = .active) := by
  have attuned : Attuned host (run (step host) system events) := by
    refine run_invariant_of_steps (Attuned host) (fun system event => Smooth event ∧ LocksBySilver host system event)
      (fun _ _ attuned meets => attuned_step roundTrip meets.1 meets.2 attuned)
      (reachable.attuned roundTrip running healthy selected agrees) events
      (fun before event after split => ⟨smooth event ?_, locks before event after split⟩)
    rw [split]
    exact List.mem_append_right _ (List.mem_cons_self ..)
  refine ⟨attuned.agrees, ?_, fun environment node den started => ?_⟩
  · rcases attuned.held with buried | ⟨_, _, holds⟩
    · exact .inl buried
    · exact .inr (by rw [selectedSilver_of_holds roundTrip holds]; rfl)
  · obtain ⟨_, absent, loaded, living⟩ := start_some started
    exact (attuned_started roundTrip attuned loaded absent living).2

end Runs

theorem persistPolicy_execute {environment : Environment} {generation : UInt64} {policy : TargetPolicy}
    {data : List UInt8} (status : Status) (selected : system.node.generation = some generation)
    (written : canonicalFromRuntime host.toAddressing policy = some data) :
    (execute (persistPolicy host environment policy status) system).2 = (system.commitProtected host generation
        { protectedFromLive system.node with targetPolicy := policy } environment.protectedState
        (fun node => { node with targetPolicy := policy })).2 := by
  simp only [persistPolicy, written, Procedure.expect, execute_bind, execute_pure, live,
    execute_alter, persistProtectedOrLegacy, selected, commitProtected, Procedure.check]
  generalize system.commitProtected host generation _ _ _ = result
  rcases result with ⟨saved, after⟩
  cases saved with
  | false => rfl
  | true => rfl

theorem commitProtected_durable {generation : UInt64} {candidate : ProtectedState} {fates : Nat → Replacement}
    {next : Generation} (publish : Node → Node) (running : system.running = true)
    (durable : (commit host.toPlatform system.den generation candidate fates).2 =
      .reported (.durablyCommitted next)) :
    (system.commitProtected host generation candidate fates publish).2 = { system with
        den := system.den.apply (commit host.toPlatform system.den generation candidate fates).1
        node := publish { system.node with generation := some next.number } } := by
  simp [System.commitProtected, running, durable, System.transaction, System.settle, System.note]

namespace Sample

theorem smooth_environment (command : Command) : Smooth (.command command (fun _ => Sample.environment)) := by
  intro _
  exact ⟨fun _ _ same => by cases same; rfl, fun _ same => by cases same; rfl,
    fun _ _ same => by cases same; rfl, fun _ same => by cases same; rfl,
    fun _ same => by cases same; rfl⟩

section Recommitting

variable {host : Host} {head : Head}

theorem governed_agrees (roundTrip : host.RoundTrip) (checked : Governance.check head = true)
    (few : head.entries ≤ 600) : BitAgrees host (governed host head) :=
  bitAgrees_of_holds roundTrip (holding_holds (bare_storable host false checked few)) rfl

theorem governed_recommits (roundTrip : host.RoundTrip) (checked : Governance.check head = true)
    (few : head.entries ≤ 600) (locked : startsLocked host (bare false (some head)) none = true)
    {document : String} (parsed : (canonicalize host.toAddressing host.readPolicy (utf8 document)).bind
      (parseCanonical host.toAddressing host.readPolicy) = some (.grants ∅)) :
    ¬ BitAgrees host (step host (governed host head)
      (.command (.targetPolicySet document) (fun _ => Sample.environment))) := by
  have carried : serve host (.targetPolicySet document) (fun _ => Sample.environment)
      (governed host head) = execute (targetPolicySet host Sample.environment document) (governed host head).fresh :=
    dispatch_carried host _ rfl (fun _ => rfl)
  have file : runtimeFile (.grants ∅) = some ⟨"deny-by-default", some []⟩ := by decide +kernel
  obtain ⟨generation, durable⟩ := commit_over_bare roundTrip false true checked few checked few (fun _ _ => rfl)
  have applied : execute (targetPolicySet host Sample.environment document)
      (governed host head).fresh = execute (persistPolicy host Sample.environment (.grants ∅)
        .targetPolicyUpdated) (governed host head).fresh := by
    simp only [targetPolicySet, parsed, Procedure.expect, execute_bind, execute_pure]
  have candidate : { protectedFromLive (governed host head).fresh.node with
      targetPolicy := .grants ∅ } = bare true (some head) := by
    have gate : (governed host head).fresh.node.gate.locked = true := locked
    simp only [protectedFromLive, gate]
    rfl
  have served : step host (governed host head) (.command (.targetPolicySet document) (fun _ => Sample.environment)) =
        (serve host (.targetPolicySet document) (fun _ => Sample.environment) (governed host head)).2 := rfl
  intro agrees
  rw [served, carried, applied,
    persistPolicy_execute .targetPolicyUpdated rfl (by simp [canonicalFromRuntime, file]; rfl),
    candidate, commitProtected_durable _ rfl durable] at agrees
  have holds := holds_of_committed durable
  have active := (agrees true (selectedSilver_of_holds roundTrip holds)).mp rfl
  cases active

end Recommitting

def activatedHead : Head :=
  (Governance.history Governance.Sample.crypto (Governance.Sample.started ++ [(Governance.Sample.signedWith 0
      (Governance.Sample.following Governance.Sample.genesis .activation), none)])).get
    (by decide +kernel)

def denying : String := "\x7b\"mode\":\"deny-by-default\",\"peers\":\x7b\x7d\x7d"

theorem activatedHead_facts : Governance.check activatedHead = true ∧ activatedHead.entries ≤ 600 ∧
      activatedHead.deadAt = none ∧
      startsLocked Sample.host (bare false (some activatedHead)) none = true ∧
      (canonicalize Sample.host.toAddressing Sample.host.readPolicy (utf8 denying)).bind
        (parseCanonical Sample.host.toAddressing Sample.host.readPolicy) = some (.grants ∅) := by
  decide +kernel

end Sample

open Sample

/-- A node that the network excludes sets a policy: its Silver bit is committed,
and its status does not say so. -/
theorem excluded_node_commits_silver : Reachable Sample.host (governed Sample.host activatedHead) ∧
      BitAgrees Sample.host (governed Sample.host activatedHead) ∧
      Smooth (.command (.targetPolicySet denying) (fun _ => environment)) ∧
      ¬ BitAgrees Sample.host (step Sample.host (governed Sample.host activatedHead)
        (.command (.targetPolicySet denying) (fun _ => environment))) := by
  obtain ⟨checked, few, alive, locked, parsed⟩ := activatedHead_facts
  exact ⟨governed_reachable Sample.roundTrip checked few alive,
    governed_agrees Sample.roundTrip checked few, smooth_environment _,
    governed_recommits Sample.roundTrip checked few locked parsed⟩

/-- The bit follows a trigger of Silver, and so does the next start. -/
theorem triggered_bit_follows_status : BitAgrees Sample.host (run (step Sample.host)
      (governed Sample.host activatedHead)
      [.command .silverTrigger (fun _ => environment), .restart environment]) := by
  obtain ⟨checked, few, alive, locked, parsed⟩ := activatedHead_facts
  have reachable : Reachable Sample.host (governed Sample.host activatedHead) :=
    governed_reachable Sample.roundTrip checked few alive
  refine (silver_bit_follows_status Sample.roundTrip reachable rfl rfl rfl
    (governed_agrees Sample.roundTrip checked few) _ (fun event member => ?_)
    (fun earlier event later split => ?_)).1
  · rcases List.mem_pair.mp member with rfl | rfl
    · exact smooth_environment _
    · trivial
  · have member : event ∈ earlier ++ event :: later :=
      List.mem_append_right _ (List.mem_cons_self ..)
    rw [← split] at member
    rcases List.mem_pair.mp member with rfl | rfl
    · exact ⟨fun same => (by cases same), fun recommits => (by cases recommits), trivial⟩
    · trivial

end Werewolf.Control
