import Werewolf.Control.StartProperties

/-! The head a node shows against the head its Den holds. They are the same while
no write has ended indeterminately, so what is learnt of one is learnt of the
other, and a start finds it again. -/

namespace Werewolf.Control
open Library Procedure Governance Policy
open State hiding name
open Storage hiding name

variable {permit : Liberty → Prop} {host : Host} {before after system : System}
  {bytes : List UInt8} {statement : Statement} {generation : UInt64} {fenced : Head}

section Agreement

variable {error : Storage.Error} {fates : Nat → Replacement}

def HoldsHead (host : Host) (den : Den) (governance : Option Head) : Prop :=
  ∃ generation state, Holds host.toPlatform den generation state ∧ state.governance = governance

theorem HoldsHead.congr {den other : Den} {governance : Option Head} (holds : HoldsHead host den governance)
    (same : ∀ file ∈ protectedFiles, other file = den file) : HoldsHead host other governance := by
  obtain ⟨generation, state, held, governs⟩ := holds
  exact ⟨generation, state, held.congr same, governs⟩

/-- A running node shows what its Den holds, unless it is degraded or the Den is
being destroyed. A node without a generation has no head, and no selector in its
Den. -/
structure Agreeing (host : Host) (system : System) : Prop where
  flat : system.node.generation = none → system.node.governance = none
  unselected : system.running = true → system.node.storageDegraded = false →
    system.node.generation = none →
      (system.den tombstoneFile).isSome ∨ system.den currentFile = none
  held : system.running = true → system.node.storageDegraded = false →
    system.node.generation.isSome →
      (system.den tombstoneFile).isSome ∨ HoldsHead host system.den system.node.governance

theorem Agreeing.kept (agreeing : Agreeing host before) (generation : after.node.generation = before.node.generation)
    (governance : after.node.governance = before.node.governance)
    (running : after.running = true → before.running = true)
    (degraded : before.node.storageDegraded = true → after.node.storageDegraded = true)
    (entombed : (before.den tombstoneFile).isSome → (after.den tombstoneFile).isSome)
    (files : (after.den tombstoneFile).isSome ∨
      ∀ file ∈ protectedFiles, after.den file = before.den file) : Agreeing host after := by
  have healthy (sane : after.node.storageDegraded = false) : before.node.storageDegraded = false := by
    rw [← Bool.not_eq_true] at sane ⊢
    exact fun worse => sane (degraded worse)
  refine ⟨fun absent => ?_, fun runs sane absent => ?_, fun runs sane present => ?_⟩
  · rw [governance]
    exact agreeing.flat (generation ▸ absent)
  · rcases files with buried | same
    · exact .inl buried
    · rcases agreeing.unselected (running runs) (healthy sane) (generation ▸ absent) with
        buried | unselected
      · exact .inl (entombed buried)
      · exact .inr ((same _ (by simp [protectedFiles])).trans unselected)
  · rcases files with buried | same
    · exact .inl buried
    · rcases agreeing.held (running runs) (healthy sane) (generation ▸ present) with buried | holds
      · exact .inl (entombed buried)
      · rw [governance]
        exact .inr (holds.congr same)

theorem flatFiles_unprotected {file : String} (flat : file ∈ flatFiles) : file ∉ protectedFiles := by
  have apart : ∀ file ∈ flatFiles, file ∉ protectedFiles := by decide +kernel
  exact apart file flat

theorem tombstone_unprotected : tombstoneFile ∉ protectedFiles :=
  fun member => tombstone_outside (List.mem_append_right _ member)

theorem finish_running {environment : Environment} {tombstone : Tombstone}
    (running : (system.finish host environment tombstone).running = true) :
    system.running = true := by
  unfold System.finish at running
  split at running
  · assumption
  · exact running

theorem legacyState_governance {platform : Platform} {den : Den} {state : ProtectedState}
    (flat : legacyState platform den = .ok state) : state.governance = none := by
  simp only [legacyState, bind_eq_ok, return_eq_ok] at flat
  obtain ⟨_, _, _, _, _, _, _, _, _, _, rfl⟩ := flat
  rfl

theorem transaction_durable_iff {outcome : Storage.Outcome} : (System.transaction outcome).2 = none ↔
      ∃ generation, outcome = .reported (.durablyCommitted generation) := by
  match outcome with
  | .reported (.durablyCommitted _) => simp [System.transaction]
  | .reported (.notCommitted _) => simp [System.transaction]
  | .reported .indeterminateAfterRename => simp [System.transaction]
  | .stopped => simp [System.transaction]

theorem transaction_refused {outcome : Storage.Outcome}
    (refused : (System.transaction outcome).2 = some (.reported (.notCommitted error))) :
    outcome = .reported (.notCommitted error) := by
  match outcome with
  | .reported (.durablyCommitted _) => cases refused
  | .reported (.notCommitted _) =>
    cases refused
    rfl
  | .reported .indeterminateAfterRename => cases refused
  | .stopped => cases refused

theorem Settles.agreeing {publish : Node → Node} {den : Den} {ended : Option Storage.Outcome}
    (settles : Settles publish before den ended after) (agreeing : Agreeing host before)
    (durable : ended = none → Agreeing host { before with den := den, node := publish before.node })
    (refused : ∀ error, ended = some (.reported (.notCommitted error)) →
      Agreeing host { before with den := den }) : Agreeing host after := by
  cases settles with
  | durable => exact durable rfl
  | unsure =>
    exact ⟨agreeing.flat, fun _ sane => (by cases sane), fun _ sane => (by cases sane)⟩
  | refused => exact refused _ rfl
  | stopped =>
    exact ⟨agreeing.flat, fun runs => (by cases runs), fun runs => (by cases runs)⟩

theorem Agreeing.commit_refused (roundTrip : host.RoundTrip) (agreeing : Agreeing host before)
    {number : UInt64} {candidate : ProtectedState} (selected : before.node.generation.isSome)
    (refused : (commit host.toPlatform before.den number candidate fates).2 = .reported (.notCommitted error)) :
    Agreeing host { before with
      den := before.den.apply (commit host.toPlatform before.den number candidate fates).1 } := by
  refine ⟨agreeing.flat, fun _ _ absent => ?_, fun runs sane present => ?_⟩
  · rw [show before.node.generation = none from absent] at selected
    cases selected
  · rcases agreeing.held runs sane present with buried | ⟨generation, state, holds, governs⟩
    · left
      dsimp only
      rw [commit_frame _ _ _ _ tombstone_unprotected]
      exact buried
    · exact .inr ⟨generation, state, holds_of_not_tookEffect roundTrip
        (not_tookEffect_of_notCommitted refused) holds, governs⟩

theorem Agreeing.migrated (agreeing : Agreeing host before) (absent : before.node.generation = none)
    {generation : Generation} {number : Option UInt64} (durable : (migrate host.toPlatform before.den fates).2 =
      .reported (.durablyCommitted generation)) (selected : number.isSome) :
    Agreeing host { before with
      den := before.den.apply (migrate host.toPlatform before.den fates).1
      node := { before.node with generation := number } } := by
  refine ⟨fun none => ?_, fun _ _ none => ?_, fun runs sane _ => ?_⟩
  · rw [show number = .none from none] at selected
    cases selected
  · rw [show number = .none from none] at selected
    cases selected
  · rcases agreeing.unselected runs sane absent with buried | unselected
    · left
      dsimp only
      rw [migrate_frame _ _ tombstone_unprotected]
      exact buried
    · obtain ⟨state, flat, holds⟩ := migrate_holds unselected durable
      refine .inr ⟨generation, state, holds, ?_⟩
      rw [legacyState_governance flat]
      exact (agreeing.flat absent).symm

theorem Agreeing.migrate_refused (agreeing : Agreeing host before) (absent : before.node.generation = none)
    (refused : (migrate host.toPlatform before.den fates).2 = .reported (.notCommitted error)) :
    Agreeing host { before with
      den := before.den.apply (migrate host.toPlatform before.den fates).1 } := by
  refine ⟨agreeing.flat, fun runs sane _ => ?_, fun _ _ present => ?_⟩
  · rcases agreeing.unselected runs sane absent with buried | unselected
    · left
      dsimp only
      rw [migrate_frame _ _ tombstone_unprotected]
      exact buried
    · exact .inr (migrate_unselected unselected refused)
  · rw [show before.node.generation = none from absent] at present
    cases present

theorem Transition.agreeing (roundTrip : host.RoundTrip)
    (transition : Transition permit host before after) (agreeing : Agreeing host before) :
    Agreeing host after := by
  have entombed := transition.entombed_stays
  cases transition with
  | moves moved retains =>
    exact agreeing.kept retains.generation retains.governance id moved.degrades id (.inr (fun _ _ => rfl))
  | stored fares moved alive written =>
    rename_i write fate publish
    rcases store_cases before write fate publish with same | settles
    · rw [same]
      exact agreeing
    · have frame (file : String) (member : file ∈ protectedFiles) :
          replaced before.den write fate file = before.den file := by
        refine replaced_frame (fun same => ?_)
        rcases written with ⟨side, _⟩ | ⟨flat, _⟩
        · exact sideFiles_unprotected (same ▸ side) member
        · exact flatFiles_unprotected (same ▸ flat) member
      have present : (before.den tombstoneFile).isSome →
          (replaced before.den write fate tombstoneFile).isSome := replaced_present
      refine settles.agreeing agreeing (fun _ => ?_) (fun _ _ => ?_)
      · rcases written with ⟨_, retains, _⟩ | ⟨_, absent, none, governance⟩
        · exact agreeing.kept retains.generation retains.governance id moved.degrades present (.inr frame)
        · exact agreeing.kept (none.trans absent.symm) governance id moved.degrades present (.inr frame)
      · exact agreeing.kept rfl rfl id id present (.inr frame)
  | committed fares alive selected moved shows =>
    rcases commitProtected_cases host before _ _ _ _ with same | settles
    · rw [same]
      exact agreeing
    · refine settles.agreeing agreeing (fun durable => ?_) (fun error refused => ?_)
      · obtain ⟨generation, committed⟩ := transaction_durable_iff.mp durable
        obtain ⟨shown, numbered⟩ := shows (System.transaction _).1
        have number := transaction_durable durable
        rw [← numbered] at number
        refine ⟨fun absent => ?_, fun _ _ absent => ?_, fun _ _ _ => ?_⟩
        · rw [absent] at number
          cases number
        · rw [absent] at number
          cases number
        · exact .inr ⟨generation, _, holds_of_committed committed, shown.governance.symm⟩
      · exact agreeing.commit_refused roundTrip (by rw [selected]; rfl) (transaction_refused refused)
  | archived =>
    rcases replaceFile_cases before _ _ with same | noted
    · rw [same]
      exact agreeing
    · rw [noted] at entombed ⊢
      exact agreeing.kept rfl rfl (fun runs => ((Bool.and_eq_true _ _).mp runs).1) id entombed
        (.inr (fun file member => replaced_frame (protectedFiles_notArchive member _)))
  | entombed =>
    rename_i data fate _ _
    rcases replaceFile_cases before _ _ with same | noted
    · rw [same]
      exact agreeing
    · rw [noted] at entombed ⊢
      refine agreeing.kept rfl rfl (fun runs => ((Bool.and_eq_true _ _).mp runs).1) id entombed
        (.inr (fun file member => replaced_frame (fun same => ?_)))
      obtain rfl : file = tombstoneFile := same
      exact tombstone_unprotected member
  | destroyed fares dying present =>
    exact agreeing.kept (by rw [finish_node]) (by rw [finish_node]) finish_running
      (by rw [finish_node]; exact id) entombed (.inl (entombed present))
  | migrated fares alive flat =>
    rcases migrate_settles host before _ with same | settles
    · rw [same]
      exact agreeing
    · refine settles.agreeing agreeing (fun durable => ?_) (fun error refused => ?_)
      · obtain ⟨generation, committed⟩ := transaction_durable_iff.mp durable
        exact agreeing.migrated flat committed (transaction_durable durable)
      · exact agreeing.migrate_refused flat (transaction_refused refused)

theorem agreeing_started (roundTrip : host.RoundTrip) {den : Den} {node : Node}
    (loaded : loadStartupState host den = some node) :
    Agreeing host ⟨node, den, true, false⟩ := by
  obtain ⟨state, found, _, _, governance, _⟩ := loadStartupState_some loaded
  unfold loadProtected at found
  split at found
  · rename_i generation stored loads
    obtain ⟨number, rfl⟩ := Prod.mk.inj (Option.some.inj found)
    refine ⟨fun absent => ?_, fun _ _ absent => ?_, fun _ _ _ => .inr ?_⟩
    · cases number.trans absent
    · cases number.trans absent
    · exact ⟨generation, stored, (holds_of_load roundTrip loads).1, governance.symm⟩
  · rename_i legacy
    obtain ⟨flat, read, same⟩ := Option.map_eq_some_iff.mp found
    obtain ⟨number, rfl⟩ := Prod.mk.inj same
    have headless : flat.governance = none := by
      cases result : flatState host den with
      | error error => simp [result, Except.toOption] at read
      | ok other =>
        simp only [result, Except.toOption, Option.some.injEq] at read
        subst read
        simp only [flatState, bind_eq_ok, return_eq_ok] at result
        obtain ⟨_, _, _, _, _, _, _, _, _, _, rfl⟩ := result
        rfl
    refine ⟨fun _ => governance.trans headless, fun _ _ _ => .inr ?_, fun _ _ present => ?_⟩
    · exact loadCurrent_none_iff.mp (load_legacy_iff.mp legacy) _ (by simp [protectedFiles])
    · dsimp only at present
      rw [← number] at present
      cases present
  · cases found

theorem Reachable.agreeing (roundTrip : host.RoundTrip) (reachable : Reachable host system) :
    system.running = true → Agreeing host system := by
  have holds := reachable.invariant (fun system => (system.running = true → Ready system) ∧
    (system.running = true → Agreeing host system)) ?_ ?_
  · exact holds.2
  · intro system event holds
    refine ⟨ready_step event holds.1, ?_⟩
    exact step_invariant (Agreeing host) (fun _ _ _ _ => permits_anything)
      (fun _ _ transition => transition.agreeing roundTrip)
      (fun agreeing => ⟨agreeing.flat, agreeing.unselected, agreeing.held⟩)
      (fun _ _ _ loaded _ _ => agreeing_started roundTrip loaded) holds.1 holds.2
  · intro system stopped
    exact ⟨fun running => absurd (stopped.symm.trans running) (by decide),
      fun running => absurd (stopped.symm.trans running) (by decide)⟩

end Agreement

section Forking

variable {environment : Environment} {statement : Statement} {fenced : Head} {generation : UInt64}
  {environments : Nat → Environment}

def ReportsFork (reply : Except Code Status) : Command → Prop
  | .governanceApply _ _ => reply = .error .governanceFork
  | .governanceSyncApply _ _ => reply = .ok (.synced (some .governanceFork))
  | _ => False

def Bars (host : Host) (head : Head) : Prop :=
  ∀ (system : System) (environment : Environment) (statement : Statement) (pin : Option Hash),
    system.node.governance = some head → head.chainsDeath statement.core = false →
      ∃ code, execute (applyStatement host environment statement pin) system = (.error code, system)

def Fenced (host : Host) (system : System) : Prop :=
  ∃ head, system.node.governance = some head ∧ head.forked = true ∧
    HoldsHead host system.den (some head) ∧ Bars host head ∧
    ∀ environment node den, start host environment system.den = (some node, den) → node.governance = some head

def RecordsFork (host : Host) (environment : Environment) (system : System) (fenced : Head) : Prop :=
  system.node.governance = some fenced ∨ ∃ generation next, system.node.generation = some generation ∧
      (commit host.toPlatform system.den generation { protectedFromLive system.node with governance := some fenced }
        environment.protectedState).2 = .reported (.durablyCommitted next)

/-- Where a sync comes upon a fork, with what is left of the environments: at a
statement, or at the conflict behind them. -/
def forkAlong (host : Host) (conflict : List Statement) :
    (Nat → Environment) → List Statement → System → Option (Environment × System × Head)
  | environments, [], system =>
      (conflictHead host.toCrypto system.node.governance conflict).map
        (fun fenced => (environments 0, system, fenced))
  | environments, statement :: rest, system =>
      match apply host.toCrypto system.node.governance statement none with
      | .ok (.fork fenced) => some (environments 0, system, fenced)
      | _ =>
          match execute (applyStatement host (environments 0) statement none) system with
          | (.ok _, next) =>
              forkAlong host conflict (fun index => environments (index + 1)) rest next
          | (.error _, _) => none

def forkPoint (host : Host) (environments : Nat → Environment) (system : System) :
    Command → Option (Environment × System × Head)
  | .governanceApply bytes pin => do
      let statement ← (Statement.decode bytes).toOption
      match apply host.toCrypto system.node.governance statement pin with
      | .ok (.fork fenced) => some (environments 0, system, fenced)
      | _ => none
  | .governanceSyncApply statements conflict => do
      let statements ← statements.mapM (fun bytes => (Statement.decode bytes).toOption)
      forkAlong host ((conflict.getD []).filterMap (fun bytes => (Statement.decode bytes).toOption))
        environments statements system
  | _ => none

theorem fork_of_apply {crypto : Crypto} {governance : Option Head} {pin : Option Hash}
    (forked : apply crypto governance statement pin = .ok (.fork fenced)) :
    ∃ head, governance = some head ∧ head.deadAt = none ∧ fenced = { head with forked := true } := by
  cases governance with
  | none =>
    unfold apply applyGenesis at forked
    dsimp only at forked
    split at forked
    · split at forked
      · cases forked
      · split at forked
        · cases forked
        · simp only [bind_eq_ok, return_eq_ok, reduceCtorEq, and_false, exists_false] at forked
    · cases forked
  | some head =>
    obtain ⟨_, _, conflicts, rfl⟩ := applyTo_fork forked
    exact ⟨head, rfl, conflicts.alive, rfl⟩

theorem bars_of_forked {head : Head} (forked : head.forked = true) (alive : head.deadAt = none) : Bars host head := by
  intro system environment statement pin governed unchained
  have refused : apply host.toCrypto (some head) statement pin = .error (.rejected .forked) := by
    simp [apply, applyTo, alive, forked, unchained]
  simp only [applyStatement, live, execute_bind, execute_alter]
  cases system.node.generation with
  | none => exact ⟨_, rfl⟩
  | some generation =>
    refine ⟨.governanceForked, ?_⟩
    simp only [Procedure.expect, execute_pure, governed, refused, execute_throw]

theorem started_head (roundTrip : host.RoundTrip) {den : Den} {governance : Option Head}
    (holds : HoldsHead host den governance) {node : Node} {after : Den}
    (started : start host environment den = (some node, after)) :
    node.governance = governance := by
  obtain ⟨generation, state, held, governs⟩ := holds
  obtain ⟨_, _, loaded, _⟩ := start_some started
  obtain ⟨read, found, _, _, same, _⟩ := loadStartupState_some loaded
  unfold loadProtected at found
  split at found
  · rename_i selected stored loads
    obtain ⟨_, rfl⟩ := Prod.mk.inj (Option.some.inj found)
    rw [same, (load_governance roundTrip held loads).2, governs]
  · rename_i legacy
    exact absurd legacy (load_ne_legacy roundTrip held)
  · cases found

theorem fenced_iff (roundTrip : host.RoundTrip) :
    Fenced host system ↔ ∃ head, system.node.governance = some head ∧ head.forked = true ∧
      HoldsHead host system.den (some head) ∧ Bars host head := by
  constructor
  · rintro ⟨head, governed, forked, holds, bars, _⟩
    exact ⟨head, governed, forked, holds, bars⟩
  · rintro ⟨head, governed, forked, holds, bars⟩
    exact ⟨head, governed, forked, holds, bars,
      fun _ _ _ started => started_head roundTrip holds started⟩

theorem recordFork_execute (host : Host) (environment : Environment)
    (running : system.running = true) (generation : UInt64) (fenced : Head) :
    let committed := commit host.toPlatform system.den generation
      { protectedFromLive system.node with governance := some fenced } environment.protectedState
    let after := (execute (recordFork host environment system.node generation fenced) system).2
    after.den = system.den.apply committed.1 ∧
      (∀ error, committed.2 = .reported (.notCommitted error) → after.running = true) ∧
      ((∃ next, committed.2 = .reported (.durablyCommitted next) ∧ after.node.governance = some fenced) ∨
        (∀ next, committed.2 ≠ .reported (.durablyCommitted next)) ∧
          after.node.governance = system.node.governance) := by
  have shape : (execute (recordFork host environment system.node generation fenced) system).2 =
      (system.commitProtected host generation
        { protectedFromLive system.node with governance := some fenced } environment.protectedState
        (fun node => { node with governance := some fenced })).2 := rfl
  dsimp only
  rw [shape, System.commitProtected, if_pos running]
  dsimp only
  generalize commit host.toPlatform system.den generation
    { protectedFromLive system.node with governance := some fenced }
    environment.protectedState = committed
  rcases committed with ⟨visible, outcome⟩
  match outcome with
  | .reported (.durablyCommitted next) =>
    exact ⟨rfl, fun _ failed => (by cases failed), .inl ⟨next, rfl, rfl⟩⟩
  | .reported (.notCommitted error) =>
    refine ⟨rfl, fun _ _ => ?_, .inr ⟨fun _ same => (by cases same), rfl⟩⟩
    simp [System.settle, System.transaction, System.note, running]
  | .reported .indeterminateAfterRename =>
    exact ⟨rfl, fun _ failed => (by cases failed), .inr ⟨fun _ same => (by cases same), rfl⟩⟩
  | .stopped =>
    exact ⟨rfl, fun _ failed => (by cases failed), .inr ⟨fun _ same => (by cases same), rfl⟩⟩

theorem recordFork_failed (host : Host) (system : System) (fails : environment.protectedState 0 = .notCommitted)
    (running : system.running = true) (generation : UInt64) (fenced : Head) :
    let after := (execute (recordFork host environment system.node generation fenced) system).2
    after.running = true ∧ after.node.governance = system.node.governance := by
  obtain ⟨error, failed⟩ := commit_fails host.toPlatform fails system.den generation
    { protectedFromLive system.node with governance := some fenced }
  obtain ⟨_, goesOn, ⟨_, durable, _⟩ | ⟨_, kept⟩⟩ :=
    recordFork_execute host environment running generation fenced
  · cases failed.symm.trans durable
  · exact ⟨goesOn error failed, kept⟩

theorem recordFork_fenced_iff (roundTrip : host.RoundTrip) (running : system.running = true)
    (holds : HoldsHead host system.den system.node.governance) (selected : system.node.generation = some generation)
    {head : Head} (governed : system.node.governance = some head) (alive : head.deadAt = none) :
    Fenced host (execute (recordFork host environment system.node generation { head with forked := true }) system).2 ↔
      RecordsFork host environment system { head with forked := true } := by
  rw [fenced_iff roundTrip]
  have outcome := recordFork_execute host environment running generation { head with forked := true }
  dsimp only at outcome
  obtain ⟨den, _, ⟨next, durable, published⟩ | ⟨undecided, kept⟩⟩ := outcome
  · refine ⟨fun _ => .inr ⟨generation, next, selected, durable⟩, fun _ => ?_⟩
    refine ⟨_, published, rfl, ?_, bars_of_forked rfl alive⟩
    rw [den]
    exact ⟨next, _, holds_of_committed durable, rfl⟩
  · constructor
    · rintro ⟨other, shown, forked, _⟩
      rw [kept, governed] at shown
      cases shown
      left
      rw [governed, ← forked]
    · rintro (already | ⟨number, next, same, durable⟩)
      · refine ⟨_, kept.trans already, rfl, ?_, bars_of_forked rfl alive⟩
        rw [den]
        obtain ⟨held, state, before, governs⟩ := holds
        cases effect : tookEffect (commit host.toPlatform system.den generation
            { protectedFromLive system.node with governance := some { head with forked := true } }
            environment.protectedState).1 with
        | true => exact ⟨_, _, (holds_of_tookEffect roundTrip effect before).1, rfl⟩
        | false =>
          exact ⟨held, state, holds_of_not_tookEffect roundTrip effect before, governs.trans already⟩
      · cases selected.symm.trans same
        exact absurd durable (undecided next)

theorem onGate_raises {operation : Authority.Gate → Option Authority.Gate} {refusal : Code}
    {allowed : Code → Prop} (holds : allowed refusal) : Raises allowed (onGate operation refusal) :=
  raises_bind (raises_alter _) (fun _ => raises_bind (raises_expect holds) (fun _ => raises_alter _))

theorem die_raises {allowed : Code → Prop} (statement : Statement) :
    Raises allowed (die host environment statement) := by
  refine raises_bind (raises_alter _) (fun _ => ?_)
  split
  · exact raises_pure _
  · refine raises_bind ?_ (fun ended => ?_)
    · unfold writeTombstone
      split
      · exact raises_pure _
      · exact raises_alter _
    · split
      · exact raises_alter _
      · exact raises_pure _

theorem enact_raises (statement : Statement) (node : Node) (generation : UInt64) (next : Head) :
    Raises (· ≠ .governanceFork) (enact host environment statement node generation next) := by
  unfold enact
  refine raises_bind (raises_alter _) (fun _ => raises_bind (raises_check (by decide)) (fun _ => ?_))
  refine raises_bind ?_ (fun _ => raises_bind ?_ (fun _ => raises_bind (raises_alter _) (fun _ => ?_)))
  · unfold fence
    split
    · refine raises_bind (raises_bind (raises_alter _) (fun _ => ?_)) (fun _ => raises_alter _)
      exact raises_bind (raises_alter _) (fun _ => raises_check (by decide))
    · exact raises_pure _
  · exact raises_forM (fun _ => raises_bind (onGate_raises (by decide)) (fun _ => raises_alter _)) _
  · refine raises_bind (raises_alter _) (fun _ => raises_bind (raises_check ?_) (fun _ => ?_))
    · split <;> decide
    · refine raises_bind (raises_forM (fun _ => ?_) _) (fun _ => raises_bind (raises_forM (fun _ =>
        onGate_raises (by decide)) _) (fun _ => raises_bind ?_ (fun _ => raises_pure _)))
      · refine raises_bind (raises_alter _) (fun _ => ?_)
        split
        · exact raises_alter _
        · exact raises_bind (raises_alter _) (fun _ => raises_throw (by decide))
      · unfold conclude
        split
        · exact die_raises statement
        · exact raises_alter _

theorem applyStatement_fork {pin : Option Hash}
    (reported : (execute (applyStatement host environment statement pin) system).1 = .error .governanceFork) :
    ∃ fenced generation,
      apply host.toCrypto system.node.governance statement pin = .ok (.fork fenced) ∧
      system.node.generation = some generation ∧
      (execute (applyStatement host environment statement pin) system).2 =
        (execute (recordFork host environment system.node generation fenced) system).2 := by
  simp only [applyStatement, live, execute_bind, execute_alter] at reported ⊢
  cases selected : system.node.generation with
  | none =>
    rw [selected] at reported
    cases reported
  | some generation =>
    rw [selected] at reported
    simp only [Procedure.expect, execute_pure] at reported ⊢
    cases applied : apply host.toCrypto system.node.governance statement pin with
    | error failure =>
      rw [applied] at reported
      cases failure with
      | rejected reason => cases reason <;> cases reported
      | panicked => cases reported
    | ok outcome =>
      rw [applied] at reported
      cases outcome with
      | alreadyApplied => cases reported
      | applied next => exact absurd rfl (enact_raises statement _ _ next _ _ reported)
      | fork fenced => exact ⟨fenced, generation, rfl, rfl, rfl⟩

theorem applyStatement_refuses_fork (environment : Environment) {pin : Option Hash}
    (forked : apply host.toCrypto system.node.governance statement pin = .ok (.fork fenced)) :
    ∃ code, (execute (applyStatement host environment statement pin) system).1 = .error code := by
  simp only [applyStatement, live, execute_bind, execute_alter]
  cases system.node.generation with
  | none => exact ⟨_, rfl⟩
  | some generation =>
    refine ⟨.governanceFork, ?_⟩
    simp only [Procedure.expect, execute_pure, forked]
    rfl

structure Presentable (host : Host) (system : System) : Prop where
  governable : Governable system
  ready : Ready system
  agreeing : Agreeing host system

theorem Presentable.next (roundTrip : host.RoundTrip) {status : Status} {next : System}
    (presentable : Presentable host system) (encodable : Encodable statement)
    (applied : execute (applyStatement host environment statement none) system = (.ok status, next))
    : Presentable host next := by
  have follows := applyStatement_follows ⟨fun _ => trivial, trivial, fun _ => trivial, trivial,
    trivial⟩ presentable.governable trivial encodable (tolerates_anything host environment system statement none)
  rw [Procedure.Follows, applied] at follows
  exact ⟨follows.2 status rfl,
    invariant_of_steps Ready (fun _ _ transition => transition.ready) follows.1 presentable.ready,
    invariant_of_steps (Agreeing host) (fun _ _ transition => transition.agreeing roundTrip)
      follows.1 presentable.agreeing⟩

theorem Presentable.holdsHead (presentable : Presentable host system) {head : Head}
    (governed : system.node.governance = some head) (alive : head.deadAt = none)
    (selected : system.node.generation = some generation) :
    system.running = true ∧ HoldsHead host system.den system.node.governance := by
  have living : system.node.dying = false := by
    refine presentable.governable.alive (fun other same => ?_)
    cases governed.symm.trans same
    exact alive
  have running := presentable.governable.runs living
  refine ⟨running, ?_⟩
  have held := presentable.agreeing.held running presentable.governable.healthy (by rw [selected]; rfl)
  refine held.resolve_left (fun buried => ?_)
  exact absurd (living.symm.trans (presentable.ready buried)) (by decide)

theorem Presentable.fork_fenced_iff (roundTrip : host.RoundTrip)
    (presentable : Presentable host system) (selected : system.node.generation = some generation)
    {head : Head} (governed : system.node.governance = some head) (alive : head.deadAt = none)
    (forks : fenced = { head with forked := true }) :
    Fenced host (execute (recordFork host environment system.node generation fenced) system).2 ↔
      RecordsFork host environment system fenced := by
  subst forks
  obtain ⟨running, holds⟩ := presentable.holdsHead governed alive selected
  exact recordFork_fenced_iff roundTrip running holds selected governed alive

theorem Presentable.statement_fenced_iff (roundTrip : host.RoundTrip)
    (presentable : Presentable host system) {pin : Option Hash}
    (reported : (execute (applyStatement host environment statement pin) system).1 = .error .governanceFork) :
    ∃ fenced, apply host.toCrypto system.node.governance statement pin = .ok (.fork fenced) ∧
      (Fenced host (execute (applyStatement host environment statement pin) system).2 ↔
        RecordsFork host environment system fenced) := by
  obtain ⟨fenced, generation, forked, selected, recorded⟩ := applyStatement_fork reported
  obtain ⟨head, governed, alive, forks⟩ := fork_of_apply forked
  refine ⟨fenced, forked, ?_⟩
  rw [recorded]
  exact presentable.fork_fenced_iff roundTrip selected governed alive forks

theorem applyAll_forkAlong (roundTrip : host.RoundTrip) (conflict : List Statement) :
    ∀ (statements : List Statement) (environments : Nat → Environment) (system after : System)
      (stopped : Option Code), Presentable host system →
      (∀ statement ∈ statements, Encodable statement) →
      execute (applyAll host environments statements) system = (.ok stopped, after) →
      (stopped = some .governanceFork → ∃ environment reached fenced,
        forkAlong host conflict environments statements system = some (environment, reached, fenced) ∧
        (Fenced host after ↔ RecordsFork host environment reached fenced)) ∧
      (stopped = none → Presentable host after ∧ forkAlong host conflict environments statements system =
          forkAlong host conflict (fun index => environments (statements.length + index)) [] after)
  | [], environments, system, after, stopped, presentable, _, finished => by
    obtain ⟨same, rfl⟩ := Prod.mk.inj finished
    cases same
    refine ⟨fun fork => (by cases fork), fun _ => ⟨presentable, ?_⟩⟩
    simp
  | statement :: rest, environments, system, after, stopped, presentable, encodable, finished => by
    have attempted : execute (applyAll host environments (statement :: rest)) system =
        match execute (applyStatement host (environments 0) statement none) system with
        | (.ok _, next) =>
          execute (applyAll host (fun index => environments (index + 1)) rest) next
        | (.error code, next) => (.ok (some code), next) := by
      simp only [applyAll, attempt, execute_bind, execute_alter]
      cases execute (applyStatement host (environments 0) statement none) system with
      | mk result next =>
        cases result with
        | ok status => rfl
        | error code => rfl
    rw [attempted] at finished
    cases result : execute (applyStatement host (environments 0) statement none) system with
    | mk reply next =>
      rw [result] at finished
      cases reply with
      | ok status =>
        have onward := applyAll_forkAlong roundTrip conflict rest
          (fun index => environments (index + 1)) next after stopped
          (presentable.next roundTrip (encodable statement List.mem_cons_self) result)
          (fun other member => encodable other (List.mem_cons_of_mem _ member)) finished
        have goesOn : forkAlong host conflict environments (statement :: rest) system =
            forkAlong host conflict (fun index => environments (index + 1)) rest next := by
          simp only [forkAlong, result]
          split
          · rename_i fenced forked
            obtain ⟨code, refused⟩ := applyStatement_refuses_fork (environments 0) forked
            rw [result] at refused
            cases refused
          · rfl
        rw [goesOn]
        refine ⟨onward.1, fun ended => ?_⟩
        obtain ⟨presents, same⟩ := onward.2 ended
        refine ⟨presents, same.trans ?_⟩
        congr 1
        funext index
        congr 1
        simp only [List.length_cons]
        omega
      | error code =>
        obtain ⟨same, rfl⟩ := Prod.mk.inj finished
        cases same
        refine ⟨fun fork => ?_, fun ended => (by cases ended)⟩
        cases fork
        obtain ⟨fenced, forked, fences⟩ := presentable.statement_fenced_iff roundTrip (by rw [result])
        refine ⟨environments 0, system, fenced, by simp only [forkAlong, forked], ?_⟩
        rw [result] at fences
        exact fences

theorem carried_of_fork {command : Command}
    (reported : ReportsFork (serve host command environments system).1 command) :
    system.node.dying = false ∧ system.node.storageDegraded = false ∧ serve host command environments system =
        execute (carryOut host environments system.node command) system.fresh := by
  have mutates : command.mutates = true := by
    cases command <;> first | rfl | exact reported.elim
  have passed (code : Code) (early : code ≠ .governanceFork) :
      (serve host command environments system).1 ≠ .error code := by
    intro refused
    rw [refused] at reported
    cases command with
    | governanceApply =>
      cases reported
      exact early rfl
    | governanceSyncApply => cases reported
    | _ => exact reported.elim
  have alive : system.node.dying = false := by
    cases dying : system.node.dying with
    | false => rfl
    | true =>
      refine absurd ?_ (passed .lifecycleDying (by decide))
      simp only [serve, dispatch, live, execute_bind, execute_alter, System.fresh, dying]
      rfl
  have healthy : system.node.storageDegraded = false := by
    cases degraded : system.node.storageDegraded with
    | false => rfl
    | true =>
      refine absurd ?_ (passed .storageDegraded (by decide))
      simp only [serve, dispatch, live, execute_bind, execute_alter, System.fresh, alive, degraded, mutates]
      rfl
  exact ⟨alive, healthy, dispatch_carried host environments alive (fun _ => healthy)⟩

theorem Presentable.conflict_fenced_iff (roundTrip : host.RoundTrip)
    (presentable : Presentable host system) {pair : List Statement} (reported : (execute (do
      let code ← recordConflict host (environments 0) pair
      return Status.synced (some code)) system).1 = .ok (.synced (some .governanceFork))) :
    ∃ environment reached fenced, forkAlong host pair environments [] system = some (environment, reached, fenced) ∧
      (Fenced host (execute (do
        let code ← recordConflict host (environments 0) pair
        return Status.synced (some code)) system).2 ↔
        RecordsFork host environment reached fenced) := by
  simp only [recordConflict, live, execute_bind, execute_alter, forkAlong] at reported ⊢
  cases selected : system.node.generation with
  | none =>
    rw [selected] at reported
    cases reported
  | some generation =>
    cases conflict : conflictHead host.toCrypto system.node.governance pair with
    | none =>
      rw [selected, conflict] at reported
      cases reported
    | some fenced =>
      obtain ⟨head, governed, alive, forks⟩ := conflictHead_some conflict
      refine ⟨environments 0, system, fenced, rfl, ?_⟩
      exact presentable.fork_fenced_iff roundTrip selected governed alive forks

theorem Presentable.sync_fenced_iff (roundTrip : host.RoundTrip) (presentable : Presentable host system)
    {statements : List (List UInt8)} {conflict : Option (List (List UInt8))}
    (reported : (execute (governanceSyncApply host environments statements conflict) system).1 =
      .ok (.synced (some .governanceFork))) :
    ∃ environment reached fenced, forkPoint host environments system (.governanceSyncApply statements conflict) =
        some (environment, reached, fenced) ∧
      (Fenced host (execute (governanceSyncApply host environments statements conflict) system).2 ↔
        RecordsFork host environment reached fenced) := by
  simp only [governanceSyncApply, execute_bind, forkPoint] at reported ⊢
  cases read : statements.mapM (fun bytes => (Statement.decode bytes).toOption) with
  | none =>
    rw [read] at reported
    cases reported
  | some decoded =>
    rw [read] at reported
    simp only [Procedure.expect, execute_pure, Option.bind_eq_bind, Option.bind_some] at reported ⊢
    have encodable : ∀ statement ∈ decoded, Encodable statement := fun statement member => by
      obtain ⟨_, _, bytes⟩ := mem_of_mapM read member
      exact .of_toOption bytes
    cases result : execute (applyAll host environments decoded) system with
    | mk reply after =>
      rw [result] at reported
      cases reply with
      | error code => cases reported
      | ok stopped =>
        obtain ⟨stops, ends⟩ := applyAll_forkAlong roundTrip
          ((conflict.getD []).filterMap (fun bytes => (Statement.decode bytes).toOption))
          decoded environments system after stopped presentable encodable result
        cases stopped with
        | some code =>
          cases reported
          exact stops rfl
        | none =>
          cases conflict with
          | none => cases reported
          | some pair =>
            obtain ⟨presents, along⟩ := ends rfl
            rw [Option.getD_some] at along
            rw [Option.getD_some, along]
            exact presents.conflict_fenced_iff roundTrip reported

theorem Presentable.apply_fenced_iff (roundTrip : host.RoundTrip)
    (presentable : Presentable host system) {bytes : List UInt8} {pin : Option Hash}
    (reported : (execute (governanceApply host (environments 0) bytes pin) system).1 = .error .governanceFork) :
    ∃ environment reached fenced, forkPoint host environments system (.governanceApply bytes pin) =
        some (environment, reached, fenced) ∧
      (Fenced host (execute (governanceApply host (environments 0) bytes pin) system).2 ↔
        RecordsFork host environment reached fenced) := by
  cases decoded : (Statement.decode bytes).toOption with
  | none =>
    simp only [governanceApply, execute_bind, decoded, Procedure.expect, execute_throw,
      Except.error.injEq, reduceCtorEq] at reported
  | some statement =>
    have carried : execute (governanceApply host (environments 0) bytes pin) system =
        execute (applyStatement host (environments 0) statement pin) system := by
      simp only [governanceApply, execute_bind, decoded, Procedure.expect, execute_pure]
    rw [carried] at reported ⊢
    obtain ⟨fenced, forked, fences⟩ := presentable.statement_fenced_iff roundTrip reported
    exact ⟨environments 0, system, fenced, by simp [forkPoint, decoded, forked], fences⟩

theorem Presentable.report_fenced_iff (roundTrip : host.RoundTrip)
    (presentable : Presentable host system) (command : Command) (environments : Nat → Environment)
    (reported : ReportsFork (execute (carryOut host environments system.node command) system).1 command) :
    ∃ environment reached fenced, forkPoint host environments system command = some (environment, reached, fenced) ∧
        (Fenced host (execute (carryOut host environments system.node command) system).2 ↔
          RecordsFork host environment reached fenced) := by
  cases command with
  | governanceApply bytes pin => exact presentable.apply_fenced_iff roundTrip reported
  | governanceSyncApply statements conflict => exact presentable.sync_fenced_iff roundTrip reported
  | _ => exact reported.elim

/-- A command that reports a fork has fenced governance, now and after every
start, exactly if the forked head was shown already or its commit was durable. -/
theorem fork_report_fences_iff (roundTrip : host.RoundTrip) (reachable : Reachable host system)
    (running : system.running = true) (command : Command) (environments : Nat → Environment)
    (reported : ReportsFork (serve host command environments system).1 command) :
    Fenced host (serve host command environments system).2 ↔ ∃ environment reached fenced,
        forkPoint host environments system.fresh command = some (environment, reached, fenced) ∧
          RecordsFork host environment reached fenced := by
  obtain ⟨alive, healthy, carried⟩ := carried_of_fork reported
  have agreeing := reachable.agreeing roundTrip running
  have presentable : Presentable host system.fresh :=
    ⟨⟨fun dying => absurd (alive.symm.trans dying) (by decide), healthy, fun _ => running⟩,
      reachable.ready running, agreeing.flat, agreeing.unselected, agreeing.held⟩
  rw [carried] at reported ⊢
  obtain ⟨environment, reached, fenced, found, fences⟩ :=
    presentable.report_fenced_iff roundTrip command environments reported
  have same : (execute (carryOut host environments system.node command) system.fresh).2 =
      (execute (carryOut host environments system.fresh.node command) system.fresh).2 := rfl
  rw [same, fences]
  constructor
  · exact fun records => ⟨environment, reached, fenced, found, records⟩
  · rintro ⟨_, _, _, again, records⟩
    cases found.symm.trans again
    exact records

end Forking

theorem serve_fork (environments : Nat → Environment) {pin : Option Hash} (alive : system.node.dying = false)
    (healthy : system.node.storageDegraded = false) (selected : system.node.generation = some generation)
    (decoded : (Statement.decode bytes).toOption = some statement)
    (forked : apply host.toCrypto system.node.governance statement pin = .ok (.fork fenced)) :
    serve host (.governanceApply bytes pin) environments system = (.error .governanceFork,
        (execute (recordFork host (environments 0) system.node generation fenced) system.fresh).2) := by
  have carried : serve host (.governanceApply bytes pin) environments system =
      execute (governanceApply host (environments 0) bytes pin) system.fresh :=
    dispatch_carried host environments alive (fun _ => healthy)
  have applied : execute (governanceApply host (environments 0) bytes pin) system.fresh =
      execute (applyStatement host (environments 0) statement pin) system.fresh := by
    simp only [governanceApply, execute_bind, decoded, Procedure.expect, execute_pure]
  have selectedFresh : system.fresh.node.generation = some generation := selected
  have forkedFresh : apply host.toCrypto system.fresh.node.governance statement pin = .ok (.fork fenced) := forked
  rw [carried, applied]
  simp only [applyStatement, live, execute_bind, execute_alter, selectedFresh, Procedure.expect,
    execute_pure, forkedFresh]
  rfl

theorem serve_fork_failed {environments : Nat → Environment} {pin : Option Hash} {head : Head}
    (running : system.running = true) (alive : system.node.dying = false)
    (healthy : system.node.storageDegraded = false) (selected : system.node.generation = some generation)
    (governed : system.node.governance = some head) (unforked : head.forked = false)
    (decoded : (Statement.decode bytes).toOption = some statement)
    (forked : apply host.toCrypto system.node.governance statement pin = .ok (.fork fenced))
    (fails : (environments 0).protectedState 0 = .notCommitted) :
    let result := serve host (.governanceApply bytes pin) environments system
    ReportsFork result.1 (.governanceApply bytes pin) ∧ result.2.running = true ∧ ¬Fenced host result.2 := by
  have failed := recordFork_failed host system.fresh fails running generation fenced
  dsimp only at failed ⊢
  rw [serve_fork environments alive healthy selected decoded forked]
  refine ⟨rfl, failed.1, ?_⟩
  rintro ⟨other, shown, marked, _⟩
  have same : some head = some other := by rw [← shown, ← governed]; exact failed.2.symm
  cases same
  exact absurd (unforked.symm.trans marked) (by decide)

theorem serve_fork_point (environments : Nat → Environment) (system : System) {pin : Option Hash}
    (alive : system.node.dying = false) (healthy : system.node.storageDegraded = false)
    (selected : system.node.generation = some generation)
    (decoded : (Statement.decode bytes).toOption = some statement)
    (forked : apply host.toCrypto system.node.governance statement pin = .ok (.fork fenced)) :
    ReportsFork (serve host (.governanceApply bytes pin) environments system).1 (.governanceApply bytes pin) ∧
      forkPoint host environments system.fresh (.governanceApply bytes pin) =
        some (environments 0, system.fresh, fenced) := by
  have forkedFresh : apply host.toCrypto system.fresh.node.governance statement pin = .ok (.fork fenced) := forked
  rw [serve_fork environments alive healthy selected decoded forked]
  exact ⟨rfl, by simp [forkPoint, decoded, forkedFresh]⟩

namespace Sample

def bare (locked : Bool) (governance : Option Head) : ProtectedState :=
  ⟨locked, [], .grants ∅, [], [], governance⟩

theorem bare_storable (host : Host) (locked : Bool) {head : Head} (checked : Governance.check head = true)
    (few : head.entries ≤ 600) : storable host (bare locked (some head)) = true := by
  have written : canonical head = some (Json.toVec documentCodec (document head)) := if_pos checked
  have small := canonical_length_le written
  generalize Json.toVec documentCodec (document head) = bytes at written small
  have peers : canonicalPack host.toPlatform [] = .ok [0x5B, 0x5D] := rfl
  have profiles : canonicalProfiles host.toPlatform [] = .ok [0x5B, 0x5D] := rfl
  have names : canonicalActive [] [] = .ok [0x5B, 0x5D] := rfl
  have policy : ∃ text, canonicalPolicy host.toPlatform (.grants ∅) = .ok text ∧ text.length ≤ 200 := by
    have file : runtimeFile (.grants ∅) = some ⟨"deny-by-default", some []⟩ := by decide +kernel
    refine ⟨Json.toVec (policyFile host.toAddressing) ⟨"deny-by-default", some []⟩, ?_, ?_⟩
    · simp only [canonicalPolicy, canonicalFromRuntime, file, Option.map_some, orError]
    · refine (Json.length_toVec_le _ _).trans ?_
      have printed : ((policyFile host.toAddressing).print ⟨"deny-by-default", some []⟩).length = 37 := rfl
      omega
  obtain ⟨text, policed, short⟩ := policy
  have silver : (canonicalSilver locked).length ≤ 100 := by cases locked <;> decide +kernel
  have documented : documents host.toPlatform (bare locked (some head)) =
      .ok ⟨[0x5B, 0x5D], canonicalSilver locked, text, [0x5B, 0x5D], [0x5B, 0x5D], some bytes⟩ := by
    simp only [documents, bare, peers, policed, profiles, names, canonicalGovernance, written, orError, Except.map]
    rfl
  have limit : documentLimit = 1048576 := rfl
  simp only [storable, documented, Except.toOption, Option.any_some, Documents.bytes]
  simp
  omega

theorem restart_bare {host : Host} (roundTrip : host.RoundTrip) (locked : Bool) {head : Head}
    (checked : Governance.check head = true) (few : head.entries ≤ 600) (alive : head.deadAt = none)
    (environment : Environment) :
    step host (stopped (holding host (bare locked (some head)))) (.restart environment) =
      ⟨awake host (bare locked (some head)), holding host (bare locked (some head)), true, false⟩ := by
  refine restart_holding roundTrip (bare_storable host locked checked few) ?_ ?_ environment
  · refine ⟨fun fingerprint endpoints found => ?_, rfl, fun _ _ _ member => (by cases member)⟩
    simp at found
  · intro other governed
    cases governed
    exact alive

theorem commit_over_bare {host : Host} (roundTrip : host.RoundTrip) (locked other : Bool)
    {head next : Head} (checked : Governance.check head = true) (few : head.entries ≤ 600)
    (checkedNext : Governance.check next = true) (fewNext : next.entries ≤ 600) {den : Den}
    (same : ∀ file ∈ protectedFiles, den file = holding host (bare locked (some head)) file) :
    ∃ generation, (commit host.toPlatform den 1 (bare other (some next))
      (fun _ => .durablyCommitted)).2 = .reported (.durablyCommitted generation) := by
  have holds := (holding_holds (bare_storable host locked checked few)).congr same
  obtain ⟨contents, documented, fits⟩ :=
    documents_of_storable (bare_storable host other checkedNext fewNext)
  have selected := loadCurrent_of_selected roundTrip holds.mode holds.current holds.positive
  exact ⟨_, commit_durable selected rfl documented fits⟩

def governed (host : Host) (head : Head) : System :=
  ⟨awake host (bare false (some head)), holding host (bare false (some head)), true, false⟩

theorem governed_reachable {host : Host} (roundTrip : host.RoundTrip) {head : Head}
    (checked : Governance.check head = true) (few : head.entries ≤ 600)
    (alive : head.deadAt = none) : Reachable host (governed host head) :=
  ⟨stopped (holding host (bare false (some head))), [.restart Sample.environment], rfl,
    restart_bare roundTrip false checked few alive Sample.environment⟩

def failing (_ : Nat) : Environment :=
  { Sample.environment with protectedState := fun _ => .notCommitted }

section Conflict

variable {host : Host} {head : Head} {statement : Statement} {bytes : List UInt8}
  (decoded : (Statement.decode bytes).toOption = some statement)
  (forked : apply host.toCrypto (some head) statement none =
    .ok (.fork { head with forked := true }))
include decoded forked

theorem governed_fork_failed (unforked : head.forked = false) :
    let result := serve host (.governanceApply bytes none) failing (governed host head)
    ReportsFork result.1 (.governanceApply bytes none) ∧ result.2.running = true ∧ ¬Fenced host result.2 :=
  serve_fork_failed rfl rfl rfl rfl rfl unforked decoded forked rfl

theorem governed_fork_recorded (roundTrip : host.RoundTrip) (checked : Governance.check head = true)
    (few : head.entries ≤ 600) (checkedFork : Governance.check { head with forked := true } = true) :
    ReportsFork (serve host (.governanceApply bytes none) (fun _ => Sample.environment)
        (governed host head)).1 (.governanceApply bytes none) ∧
      ∃ environment reached fenced, forkPoint host (fun _ => Sample.environment) (governed host head).fresh
          (.governanceApply bytes none) = some (environment, reached, fenced) ∧
        RecordsFork host environment reached fenced := by
  obtain ⟨reported, point⟩ := serve_fork_point (fun _ => Sample.environment)
    (governed host head) rfl rfl rfl decoded forked
  obtain ⟨next, durable⟩ := commit_over_bare roundTrip false (startsLocked host (bare false (some head)) none)
    checked few checkedFork few (fun _ _ => rfl)
  exact ⟨reported, _, _, _, point, .inr ⟨1, next, rfl, durable⟩⟩

end Conflict

def revoking (tag : UInt8) : Statement :=
  Governance.Sample.signedWith 0 (Governance.Sample.following Governance.Sample.genesis
    (.revocation [Governance.Sample.key tag]))

def revokedHead : Head :=
  (Governance.history Governance.Sample.crypto
    (Governance.Sample.started ++ [(revoking 20, none)])).get (by decide +kernel)

theorem revokedHead_facts : Governance.check revokedHead = true ∧
      Governance.check { revokedHead with forked := true } = true ∧
      revokedHead.entries ≤ 600 ∧ revokedHead.deadAt = none ∧ revokedHead.forked = false ∧
      (Statement.decode (revoking 21).encode).toOption = some (revoking 21) ∧
      apply Sample.host.toCrypto (some revokedHead) (revoking 21) none =
        .ok (.fork { revokedHead with forked := true }) := by
  decide +kernel

end Sample

open Sample

/-- A fork whose commit fails is reported as a fence that is not there. -/
theorem unrecorded_fork_reported : Reachable Sample.host (governed Sample.host Sample.revokedHead) ∧
      (let command := Command.governanceApply (revoking 21).encode none
       let result := serve Sample.host command Sample.failing
         (governed Sample.host Sample.revokedHead)
       ReportsFork result.1 command ∧ result.2.running = true ∧ ¬Fenced Sample.host result.2) := by
  obtain ⟨checked, _, few, alive, unforked, decoded, forked⟩ := revokedHead_facts
  exact ⟨governed_reachable Sample.roundTrip checked few alive, governed_fork_failed decoded forked unforked⟩

/-- A fork whose commit is durable fences the node. -/
theorem recorded_fork_fences : Fenced Sample.host (serve Sample.host (.governanceApply (revoking 21).encode none)
      (fun _ => Sample.environment) (governed Sample.host Sample.revokedHead)).2 := by
  obtain ⟨checked, checkedFork, few, alive, _, decoded, forked⟩ := revokedHead_facts
  have reachable : Reachable Sample.host (governed Sample.host Sample.revokedHead) :=
    governed_reachable Sample.roundTrip checked few alive
  obtain ⟨reported, recorded⟩ :=
    governed_fork_recorded decoded forked Sample.roundTrip checked few checkedFork
  exact (fork_report_fences_iff Sample.roundTrip reachable rfl
    (.governanceApply (revoking 21).encode none) (fun _ => Sample.environment)
    reported).mpr recorded

end Werewolf.Control
