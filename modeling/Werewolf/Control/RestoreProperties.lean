import Werewolf.Control.DialProperties
import Werewolf.Control.Restore

/-! The gates of a Fang are passed under one lock and the Fang is published under
the next. For a command nothing comes between the two; for the restoration at
start-up a command may. -/

namespace Werewolf.Control
open Library Procedure Governance Policy
open State hiding name
open Storage hiding name

variable {host : Host}

section Fitness

variable {providers : List Provider}

structure Fit (host : Host) (node : Node) (providers : List Provider) : Prop where
  silver : node.silver ≠ .active
  admitted : node.unadmitted host.toExternal = false
  alive : node.dying = false
  current : ∀ provider ∈ providers, provider.Current host.toAddressing node.peers

theorem Fit.aside {before after : Node} (fit : Fit host before providers)
    (aside : Aside before after) : Fit host after providers where
  silver := aside.silver ▸ fit.silver
  admitted := by
    simp only [Node.unadmitted, Node.ownKey, aside.governance, aside.pelt]
    exact fit.admitted
  alive := aside.dying.trans fit.alive
  current := aside.peers ▸ fit.current

theorem Fit.publishes {node : Node} (fit : Fit host node providers) (fang : Fang) :
    Fit host { node with fangs := node.fangs ++ [fang], mode := .wolf } providers :=
  ⟨fit.silver, fit.admitted, fit.alive, fit.current⟩

theorem outwardGates_fit {node : Node} (coherent : Coherent node) (passed : outwardGates host node = .ok ())
    (alive : node.dying = false) (current : ∀ provider ∈ providers, provider.Current host.toAddressing node.peers) :
    Fit host node providers := by
  unfold outwardGates at passed
  split at passed
  · cases passed
  · rename_i shown
    split at passed
    · cases passed
    · rename_i admitted
      exact ⟨fun active => shown (coherent active).2, by simpa using admitted, alive, current⟩

end Fitness

section Steps

variable {environments : Nat → Environment}

/-- What the node must be for the step to keep the Fangs fit: no command comes
between the gates and the publication of a restored Fang, and no Fang is prepared
once the node is dying. -/
def Uninterrupted (state : Restoring) : RestoringEvent → Prop
  | .control (.command _ _) _ =>
      ∀ fang provider names, state.restoration ≠ .prepared fang provider names
  | .control _ _ => True
  | .restore _ =>
      ∀ profile names, state.restoration = .found profile names → state.system.node.dying = false

def PublishesFit (host : Host) (state : Restoring) (event : RestoringEvent) : Prop :=
  ∀ fang, state.system.node.fangs.count fang < (state.step host event).system.node.fangs.count fang →
    Fit host (state.step host event).system.node (state.dialling host event)

structure Tidy (host : Host) (state : Restoring) : Prop where
  coherent : Coherent state.system.node
  prepared : ∀ fang provider names, state.restoration = .prepared fang provider names →
    Fit host state.system.node [provider]

variable {state : Restoring}

theorem serve_publishesFit {command : Command} {requested : String} (coherent : Coherent state.system.node) :
    PublishesFit host state (.control (.command command environments) requested) := by
  intro fang more
  simp only [Restoring.step, Restoring.onControl, Restoring.dialling, Event.listening,
    Event.opening, Control.step] at more ⊢
  generalize resolved : state.system.node.resolve host.toAddressing requested command = opening at more ⊢
  split at more
  · rename_i running
    rw [if_pos running]
    cases serve_handles host command (fun index => (environments index).listening opening) state.system with
    | loyal loyal => exact absurd (loyal.fangs.count_le fang) (by omega)
    | opens fang opens =>
      obtain ⟨_, opening, _, rfl, _, _⟩ := listening_some opens.listener
      have sound := resolve_sound resolved opens.asked
      have fit := outwardGates_fit coherent opens.admitted opens.alive sound.current
      exact (fit.publishes fang).aside opens.opened
  · omega

theorem serve_coherent {command : Command} (coherent : Coherent state.system.node) :
    Coherent (serve host command environments state.system).2.node := by
  cases serve_handles host command environments state.system with
  | loyal loyal => exact loyal.coherent coherent
  | opens fang opens =>
    have fit : Fit host state.system.node [] :=
      outwardGates_fit coherent opens.admitted opens.alive (by simp)
    intro active
    exact absurd (opens.opened.silver.symm.trans active) fit.silver

theorem prepare_fit {environment : Environment} {node : Node} {profile : FangProfile} {names rest : List String}
    {fang : Fang} {provider : Provider} (coherent : Coherent node) (alive : node.dying = false)
    (prepared : prepare host environment node profile names = .prepared fang provider rest) :
    Fit host node [provider] := by
  unfold prepare at prepared
  split at prepared
  · rename_i passed resolved listening
    cases prepared
    refine outwardGates_fit coherent (fangGates_ok passed).1 alive (fun other listed => ?_)
    rw [List.mem_singleton.mp listed]
    exact (directResolve_spec resolved).2
  · cases prepared

theorem Tidy.restore {environment : Environment} (tidy : Tidy host state)
    (uninterrupted : Uninterrupted state (.restore environment)) :
    Tidy host (state.restore host environment) := by
  unfold Restoring.restore
  cases stage : state.restoration with
  | waiting => exact ⟨tidy.coherent, fun _ _ _ prepared => by cases prepared⟩
  | looking names =>
    cases names with
    | nil => exact tidy
    | cons name names =>
      dsimp only
      split
      · exact ⟨tidy.coherent, fun _ _ _ prepared => by cases prepared⟩
      · exact ⟨tidy.coherent, fun _ _ _ prepared => by cases prepared⟩
  | found profile names =>
    have alive := uninterrupted profile names stage
    exact ⟨tidy.coherent, fun _ _ _ prepared => prepare_fit tidy.coherent alive prepared⟩
  | prepared fang provider names =>
    have fit := tidy.prepared fang provider names stage
    exact ⟨fun active => absurd active fit.silver, fun _ _ _ prepared => by cases prepared⟩

theorem Tidy.step (tidy : Tidy host state) (event : RestoringEvent)
    (uninterrupted : Uninterrupted state event) : Tidy host (state.step host event) := by
  cases event with
  | restore environment =>
    simp only [Restoring.step]
    split
    · exact tidy.restore uninterrupted
    · exact tidy
  | control event requested =>
    cases event with
    | command command environments =>
      refine ⟨?_, fun fang provider names prepared => ?_⟩
      · simp only [Restoring.step, Restoring.onControl, Event.listening, Control.step]
        split
        · exact serve_coherent tidy.coherent
        · exact tidy.coherent
      · exact absurd prepared (uninterrupted fang provider names)
    | inbound operation =>
      have aside : Aside state.system.node
          (state.step host (.control (.inbound operation) requested)).system.node := by
        simp only [Restoring.step, Restoring.onControl, Event.listening, Control.step]
        split
        · exact ⟨rfl, rfl, rfl, rfl, rfl, rfl, rfl, rfl⟩
        · exact .refl _
      exact ⟨aside.coherent tidy.coherent, fun fang provider names prepared =>
        (tidy.prepared fang provider names prepared).aside aside⟩
    | restart environment =>
      refine ⟨?_, fun _ _ _ prepared => by cases prepared⟩
      simp only [Restoring.step, Restoring.onControl, Event.listening, Control.step]
      cases started : start host environment state.system.den with
      | mk node den =>
        cases node with
        | none => exact tidy.coherent
        | some node =>
          obtain ⟨_, _, loaded, _⟩ := start_some started
          exact (loadStartupState_idle loaded).2

theorem Tidy.publishesFit (tidy : Tidy host state) (event : RestoringEvent) : PublishesFit host state event := by
  cases event with
  | restore environment =>
    intro fang more
    simp only [Restoring.step, Restoring.dialling] at more ⊢
    split at more
    · rename_i running
      rw [if_pos running]
      unfold Restoring.restore at more ⊢
      cases stage : state.restoration with
      | prepared prepared provider names =>
        have fit := tidy.prepared prepared provider names stage
        exact (fit.publishes prepared).aside ⟨rfl, rfl, rfl, rfl, rfl, rfl, rfl, rfl⟩
      | waiting =>
        simp only [stage] at more
        omega
      | looking names =>
        cases names with
        | nil =>
          simp only [stage] at more
          omega
        | cons name names =>
          simp only [stage] at more
          split at more <;> exact absurd more (lt_irrefl _)
      | found profile names =>
        simp only [stage] at more
        omega
    · omega
  | control event requested =>
    cases event with
    | command command environments => exact serve_publishesFit tidy.coherent
    | inbound operation =>
      intro fang more
      simp only [Restoring.step, Restoring.onControl, Event.listening, Control.step] at more
      split at more <;> exact absurd more (lt_irrefl _)
    | restart environment =>
      intro fang more
      simp only [Restoring.step, Restoring.onControl, Event.listening, Control.step] at more
      cases started : start host environment state.system.den with
      | mk node den =>
        rw [started] at more
        cases node with
        | none => exact absurd more (by simp)
        | some node =>
          obtain ⟨_, _, loaded, _⟩ := start_some started
          simp only [(loadStartupState_idle loaded).1, List.count_nil] at more
          omega

/-- In every run in which no command comes between the gates and the publication of
a restored Fang, and none is prepared on a dying node: Silver is coherent in every
state, and every Fang that is published fits the node. -/
theorem Restoring.uninterrupted_restoration_is_safe (host : Host) (first : Restoring)
    (coherent : Coherent first.system.node) (waiting : first.restoration = .waiting) (events : List RestoringEvent)
    (uninterrupted : ∀ before event after, events = before ++ event :: after →
      Uninterrupted (run (Restoring.step host) first before) event) :
    (∀ before after, events = before ++ after → Coherent (run (Restoring.step host) first before).system.node) ∧
    ∀ before event after, events = before ++ event :: after →
      PublishesFit host (run (Restoring.step host) first before) event := by
  have begins : Tidy host first :=
    ⟨coherent, fun _ _ _ prepared => by cases waiting.symm.trans prepared⟩
  have tidy (before after : List RestoringEvent) (split : events = before ++ after) :
      Tidy host (run (Restoring.step host) first before) := by
    refine run_invariant_of_steps (Tidy host) Uninterrupted
      (fun _ event tidy kept => tidy.step event kept) begins before
      (fun earlier event later shape => uninterrupted earlier event (later ++ after) ?_)
    rw [split, shape, List.append_assoc, List.cons_append]
  exact ⟨fun before after split => (tidy before after split).coherent,
    fun before event after split => (tidy before (event :: after) split).publishesFit event⟩

end Steps

namespace Sample

def howling : FangProfile := ⟨"howl", "howler", "127.0.0.1:8000", "127.0.0.1:22", "tcp"⟩

def awaiting : Restoring :=
  ⟨{ befriended with node := { befriended.node with
      fangProfiles := [howling]
      activeProfiles := ["howl"] } }, .waiting⟩

def restoring : List RestoringEvent := List.replicate 4 (.restore (willing 0))

end Sample

open Sample

theorem restoring_is_safe : (run (Restoring.step Sample.host) awaiting restoring).system.node.fangs.map
        (·.peer) = ["howler"] ∧
      (∀ before after, restoring = before ++ after →
        Coherent (run (Restoring.step Sample.host) awaiting before).system.node) ∧
      ∀ before event after, restoring = before ++ event :: after →
        PublishesFit Sample.host (run (Restoring.step Sample.host) awaiting before) event := by
  refine ⟨by decide +kernel, Restoring.uninterrupted_restoration_is_safe Sample.host _ ?_ rfl _ ?_⟩
  · intro active
    cases active
  · intro before event after split
    rcases before with _ | ⟨_, _ | ⟨_, _ | ⟨_, _ | ⟨_, _⟩⟩⟩⟩ <;>
      simp only [restoring, List.replicate, List.nil_append, List.cons_append, List.cons.injEq] at split
    · obtain ⟨rfl, _⟩ := split
      intro _ _ _
      rfl
    · obtain ⟨rfl, rfl, _⟩ := split
      intro _ _ _
      rfl
    · obtain ⟨rfl, rfl, rfl, _⟩ := split
      intro _ _ _
      rfl
    · obtain ⟨rfl, rfl, rfl, rfl, _⟩ := split
      intro _ _ _
      decide +kernel
    · simp at split

theorem step_restart_ungoverned {system : System} {environment : Environment} {node : Node}
    (bare : system.den tombstoneFile = none) (loaded : loadStartupState host system.den = some node)
    (ungoverned : node.governance = none) :
    Control.step host system (.restart environment) = ⟨node, system.den, true, false⟩ := by
  simp only [Control.step, start, bare, loaded, ungoverned]

namespace Sample

def rested : Den := fun file =>
  if file = silverFile then some (silverText false)
  else if file = packFile then some (Sample.host.packText befriended.node.peers)
  else if file = fangsFile then some (Sample.host.profilesText [howling])
  else if file = activeFangsFile then some (Sample.host.namesText ["howl"])
  else if file = peltFile then some (Sample.host.peltText pelt)
  else none

private theorem readFlat_rested {α : Type} {file : String} {limit : Nat} {default value : α}
    {data : List UInt8} {parse : List UInt8 → Except Storage.Error α} (held : rested file = some data)
    (short : data.length ≤ limit) (parsed : parse data = .ok value) :
    readFlat rested file limit default parse = .ok value := by
  have found : Storage.read rested file limit = .ok (some data) := by
    simp [Storage.read, held, Nat.not_lt.mpr short]
  simp [readFlat, found, parsed, bind, Except.bind]

private theorem readValid_ok {α : Type} {fromSlice : List UInt8 → Option (List α)} {valid : List α → Bool}
    {data : List UInt8} {values : List α} (read : fromSlice data = some values) (accepted : valid values = true) :
    readValid fromSlice valid data = .ok values := by
  simp [readValid, orError, read, accepted, bind, Except.bind]

theorem rested_state : flatState Sample.host rested =
      .ok ⟨false, befriended.node.peers, .deny, [howling], ["howl"], none⟩ := by
  have silver := @readFlat_rested _ silverFile silverLimit true false _ (flatSilver Sample.host)
    rfl (by decide +kernel) (by decide +kernel)
  have policy : readFlat rested targetPolicyFile documentLimit TargetPolicy.deny (fun data =>
      .ok (((Sample.host.readPolicy data).bind policyOf).getD .invalid)) = .ok .deny := rfl
  have peers := @readFlat_rested _ packFile documentLimit [] _ _ _ rfl (by decide +kernel)
    (@readValid_ok _ Sample.host.readPeers (pack Sample.host.toExternal) _ _
      (roundTrip.peers befriended.node.peers) (by decide +kernel))
  have profiles := @readFlat_rested _ fangsFile documentLimit [] _ _ _ rfl (by decide +kernel)
    (@readValid_ok _ Sample.host.readProfiles (profileDocument Sample.host.toExternal) _ _
      (roundTrip.profiles [howling]) (by decide +kernel))
  have names := @readFlat_rested _ activeFangsFile documentLimit [] _ _ _ rfl (by decide +kernel)
    (@readValid_ok _ Sample.host.readNames (fun names => active names [howling]) _ _
      (roundTrip.names ["howl"]) (by decide +kernel))
  unfold flatState
  rw [silver, policy, peers]
  simp only [bind, Except.bind, profiles, names]
  rfl

theorem rested_protected : loadProtected Sample.host rested =
      some (none, ⟨false, befriended.node.peers, .deny, [howling], ["howl"], none⟩) := by
  have legacy : load Sample.host.toPlatform rested = .ok .legacy := rfl
  unfold loadProtected
  rw [legacy]
  show (flatState Sample.host rested).toOption.map (fun state => (none, state)) = _
  rw [rested_state]
  rfl

theorem rested_pelt : readFile rested peltFile peltLimit none (fun data => (parsePelt Sample.host data).map some) =
      some (some pelt) := by
  have short : (Sample.host.peltText pelt).length ≤ peltLimit := by decide +kernel
  have valid : identity Sample.host.toExternal Sample.host.verifyingKey pelt = true := by
    decide +kernel
  have held : rested peltFile = some (Sample.host.peltText pelt) := rfl
  simp [readFile, Storage.read, held, Nat.not_lt.mpr short, parsePelt, faithful.pelt, valid]

theorem rested_loads : loadStartupState Sample.host rested = some awaiting.system.node := by
  have absent {α : Type} {file : String} {limit : Nat} {default : α}
      {parse : List UInt8 → Option α} (none : rested file = none) :
      readFile rested file limit default parse = some default := by
    unfold readFile Storage.read
    rw [none]
  unfold loadStartupState
  rw [rested_protected, rested_pelt, absent rfl, absent rfl, absent rfl, absent rfl, absent rfl, absent rfl]
  rfl

theorem rested_starts : Control.step Sample.host (stopped rested) (.restart environment) =
      ⟨awaiting.system.node, rested, true, false⟩ :=
  step_restart_ungoverned rfl rested_loads rfl

theorem rested_reachable : Reachable Sample.host ⟨awaiting.system.node, rested, true, false⟩ := by
  have restarted := @Reachable.of_restart Sample.host (stopped rested) rfl Sample.environment
  rw [rested_starts] at restarted
  exact restarted

def triggered : Restoring :=
  run (Restoring.step Sample.host) ⟨stopped rested, .waiting⟩
    [.control (.restart environment) "", .restore (willing 0), .restore (willing 0),
      .restore (willing 0), .control (smoothly .silverTrigger) ""]

theorem triggered_eq :
    triggered = run (Restoring.step Sample.host) ⟨⟨awaiting.system.node, rested, true, false⟩, .waiting⟩
      [.restore (willing 0), .restore (willing 0), .restore (willing 0),
        .control (smoothly .silverTrigger) ""] := by
  unfold triggered
  rw [run_cons]
  simp only [Restoring.step, Restoring.onControl, Event.listening, rested_starts]

end Sample

/-- A trigger between the gates and the publication leaves a Fang of the restoration
open under Silver, and the node shows Wolf. -/
theorem restored_fang_survives_trigger : triggered.system.node.silver = .active ∧ triggered.system.node.fangs = [] ∧
      (let published := Restoring.step Sample.host triggered (.restore (willing 0))
       published.system.node.silver = .active ∧ published.system.node.mode = .wolf ∧ published.system.node.fangs =
           [⟨"first", "howler", "127.0.0.1:8000", "127.0.0.1:22", []⟩]) := by
  rw [triggered_eq]
  decide +kernel

end Werewolf.Control
