import Werewolf.Control.RestoreProperties
import Werewolf.Control.RouteProperties

/-! A new address for a member. The active profiles that leave with it are chosen
by the routes in force, the Fangs that are closed by the members they were opened
with, and the two agree where no route is changed under an open Fang. -/

namespace Werewolf.Control
open Library Procedure Governance Policy
open State hiding name
open Storage hiding name

variable {host : Host} {environment : Environment} {system : System}

section Leaving

def ActivePersisted (host : Host) (system : System) (names : List String) : Prop :=
  match system.node.generation with
  | some _ => ∃ generation state, Holds host.toPlatform system.den generation state ∧ state.activeProfiles = names
  | none => system.den activeFangsFile = some (host.namesText names)

def LeavesActive (host : Host) (before after : System) (name : String) : Prop :=
  name ∈ before.node.activeProfiles ∧ name ∉ after.node.activeProfiles ∧
    ActivePersisted host after after.node.activeProfiles

structure Narrows (host : Host) (candidateActive affected : List String) (before after : System) :
    Prop where
  active : after.node.activeProfiles = candidateActive
  fangs : after.node.fangs = before.node.fangs.filter (fun fang => fang.id ∉ affected)
  persisted : candidateActive ≠ before.node.activeProfiles →
    ActivePersisted host after candidateActive

abbrev Gives {α : Type} (system : System) (action : Action α) (holds : α → System → Prop) : Prop :=
  Follows (fun _ _ => True) system action holds

theorem store_gives {write : Write} {fate : Replacement} {publish : Node → Node} :
    Gives system (store write fate publish) (fun saved next => saved = true →
      next = { system with den := system.den.apply [write], node := publish system.node }) :=
  follows_alter (.single trivial) store_true

theorem saveNarrowed_gives (candidateActive old : List String) :
    Gives system (saveNarrowed host environment candidateActive old) (fun saved next =>
      saved = true → next.node = system.node ∧
        (candidateActive ≠ old →
          next.den activeFangsFile = some (host.namesText candidateActive))) := by
  unfold saveNarrowed
  split
  · rename_i same
    exact follows_pure (fun _ => ⟨rfl, fun fewer => absurd same fewer⟩)
  · refine store_gives.imp (fun _ next stored saved => ?_)
    rw [stored saved]
    exact ⟨rfl, fun _ => by simp [Den.apply]⟩

theorem saveAddress_narrows (candidatePeers : List PeerRecord) (candidateActive affected : List String) :
    Gives system (saveAddress host environment system.node candidatePeers candidateActive affected)
      (fun saved next => saved = true → Narrows host candidateActive affected system next) := by
  unfold saveAddress
  cases selected : system.node.generation with
  | some generation =>
    refine follows_alter (.single trivial) (fun saved => ?_)
    obtain ⟨next, holds, published⟩ := commitProtected_holds saved
    refine ⟨by rw [published]; rfl, by rw [published]; rfl, fun _ => ?_⟩
    have numbered : (system.commitProtected host generation _ environment.protectedState
      _).2.node.generation = some next.number := congrArg Node.generation published
    simp only [ActivePersisted, numbered]
    exact ⟨next, _, holds, rfl⟩
  | none =>
    refine follows_bind (saveNarrowed_gives candidateActive system.node.activeProfiles)
      (fun narrowed middle narrows => ?_)
    split
    · exact follows_pure (fun saved => by cases saved)
    · rename_i kept
      obtain ⟨node, file⟩ := narrows (by simpa using kept)
      refine follows_bind store_gives (fun saved next stored => follows_live ?_)
      split
      · refine follows_pure (fun done => ?_)
        rw [stored done, node]
        refine ⟨rfl, rfl, fun fewer => ?_⟩
        have flat : ActivePersisted host
            { middle with
              den := middle.den.apply [⟨packFile, host.packText candidatePeers⟩]
              node := publishInvalidatedRuntime candidateActive affected
                { system.node with peers := candidatePeers } } candidateActive ↔
            middle.den.apply [⟨packFile, host.packText candidatePeers⟩] activeFangsFile =
              some (host.namesText candidateActive) := by
          simp only [ActivePersisted, publishInvalidatedRuntime, selected]
        have other : activeFangsFile ∉ [packFile] := by decide
        rw [flat, apply_of_notMem other]
        exact file fewer
      · refine follows_bind store_gives (fun _ _ _ => ?_)
        split
        · exact follows_pure (fun saved => by cases saved)
        · exact follows_alter_bind (.single trivial) (follows_pure (fun saved => by cases saved))

theorem packSetAddress_narrows {name address : String} {candidate : List PeerRecord}
    (change : changeAddress name address system.node.peers = some (true, candidate)) :
    Gives system (packSetAddress host environment name address) (fun _ next =>
      Narrows host (survivingActive system.node name true) (affectedIds system.node name true)
        system next) := by
  refine follows_live ?_
  rw [change]
  refine follows_check (fun _ => follows_bind (?_ : Gives system
    (applyPackAddressChange host environment name candidate true) (fun _ next =>
      Narrows host (survivingActive system.node name true) (affectedIds system.node name true)
        system next)) (fun _ _ narrows => follows_pure narrows))
  refine follows_live (follows_check (fun _ => ?_))
  refine follows_bind (saveAddress_narrows candidate _ _) (fun saved next narrows => ?_)
  split
  · rename_i done
    exact follows_pure (narrows done)
  · exact follows_update_bind trivial follows_throw

end Leaving

section Recording

def Node.profileUses (node : Node) (peer name : String) : Prop :=
  ∃ profile ∈ node.fangProfiles, profile.name = name ∧ usesPeer node.routes peer profile.peer = true

theorem mem_survivingActive_iff {node : Node} {peer name : String} :
    name ∈ survivingActive node peer true ↔
      name ∈ node.activeProfiles ∧ ¬ node.profileUses peer name := by
  simp only [survivingActive, if_true, List.mem_filter, Bool.not_eq_true', List.any_eq_false,
    Bool.and_eq_true, decide_eq_true_eq, Node.profileUses, not_exists, not_and]

theorem Narrows.leaves_iff {before after : System} {peer name : String}
    (narrows : Narrows host (survivingActive before.node peer true)
      (affectedIds before.node peer true) before after) (active : name ∈ before.node.activeProfiles) :
    LeavesActive host before after name ↔ before.node.profileUses peer name := by
  rw [LeavesActive, narrows.active, mem_survivingActive_iff]
  constructor
  · rintro ⟨_, gone, _⟩
    by_contra stays
    exact gone ⟨active, stays⟩
  · intro uses
    refine ⟨active, fun stays => stays.2 uses, narrows.persisted (fun same => ?_)⟩
    rw [← same] at active
    exact (mem_survivingActive_iff.mp active).2 uses

/-- What a Fang was opened with is what the routes in force say. -/
structure Aligned (host : Host) (node : Node) : Prop where
  routes : validateRoutes node.routes = true
  profiles : profileDocument host.toExternal node.fangProfiles = true
  ids : (node.fangs.map (·.id)).Nodup
  uses : ∀ fang ∈ node.fangs, ∀ peer, fang.uses peer = usesPeer node.routes peer fang.peer

theorem usesPeer_eq {routes : List Route} (valid : validateRoutes routes = true)
    (peer destination : String) :
    usesPeer routes peer destination = (decide (destination = peer) ||
      (routes.find? (fun route => route.peer = destination)).any (fun route => route.via = peer)) := by
  have distinct := (validateRoutes_iff.mp valid).distinct
  refine congrArg (_ || ·) (Bool.eq_iff_iff.mpr ?_)
  simp only [List.any_eq_true, Option.any_eq_true, Bool.and_eq_true, decide_eq_true_eq]
  constructor
  · rintro ⟨route, listed, rfl, via⟩
    have present : (routes.find? (fun other => other.peer = route.peer)).isSome = true :=
      List.find?_isSome.mpr ⟨route, listed, by simp⟩
    obtain ⟨other, found⟩ := Option.isSome_iff_exists.mp present
    have same : other.peer = route.peer := by simpa using List.find?_some found
    obtain rfl := List.inj_on_of_nodup_map distinct (List.mem_of_find?_eq_some found) listed same
    exact ⟨other, found, via⟩
  · rintro ⟨route, found, via⟩
    exact ⟨route, List.mem_of_find?_eq_some found, by simpa using List.find?_some found, via⟩

variable {node after : Node} {command : Command} {fang : Fang}

/-- A route is changed only where no Fang is open, and a service that is connected
has no fallbacks. -/
def Node.spares (node : Node) : Command → Prop
  | .routeSet _ _ _ | .routeRemove _ => node.fangs = []
  | .serviceConnect name _ =>
      ∀ service ∈ node.services, service.name = name → service.fallbacks.isEmpty = true
  | _ => True

theorem Aligned.loyal (aligned : Aligned host node) (spared : node.spares command)
    (loyal : Loyal (node.accepts host command) node after) : Aligned host after := by
  have ids := aligned.ids.sublist (loyal.fangs.map _)
  have uses (fang : Fang) (opened : fang ∈ after.fangs) :=
    aligned.uses fang (loyal.fangs.subset opened)
  obtain ⟨valid, named, _, _⟩ := aligned
  rcases loyal.plan with same | accepted
  · obtain ⟨routes, profiles⟩ := Prod.ext_iff.mp same
    simp only [Node.plan] at routes profiles
    exact ⟨routes ▸ valid, profiles ▸ named, ids, routes ▸ uses⟩
  · have idle (none : node.fangs = []) (valid : validateRoutes after.routes = true)
        (profiles : after.fangProfiles = node.fangProfiles) : Aligned host after := by
      have closed : after.fangs = [] := List.sublist_nil.mp (none ▸ loyal.fangs)
      exact ⟨valid, profiles ▸ named, ids, by simp [closed]⟩
    cases command with
    | routeSet peer via hop => exact idle spared (routeSet_valid accepted.1) accepted.2
    | routeRemove peer => exact idle spared (routeRemove_valid accepted.1) accepted.2
    | fangProfileAdd _ | fangProfileRemove _ =>
      obtain ⟨routes, profiles⟩ := accepted
      simp only [Node.plan] at routes profiles
      exact ⟨routes ▸ valid, profiles, ids, routes ▸ uses⟩
    | _ => cases accepted

theorem directResolve_uses {addressing : Addressing} {transport peer remote : String}
    {provider : Provider}
    (resolved : directResolve addressing node transport peer remote = some provider) :
    provider.uses.tail =
      ((node.routes.find? (fun route => route.peer = peer)).map (·.via)).toList := by
  simp only [directResolve, bind_eq_some, return_eq_some] at resolved
  obtain ⟨record, _, path, led, rfl⟩ := resolved
  unfold directPath pathTo at led
  cases found : node.routes.find? (fun route => route.peer = peer) with
  | some route =>
    rw [found] at led
    obtain ⟨routed, relayed, rfl⟩ := Option.map_eq_some_iff.mp led
    simp only [relayResolve, bind_eq_some, return_eq_some] at relayed
    obtain ⟨_, _, _, _, _, _, _, _, rfl⟩ := relayed
    rfl
  | none =>
    rw [found] at led
    obtain ⟨transport, _, reached⟩ := Option.bind_eq_some_iff.mp led
    cases transport <;> cases reached <;> rfl

theorem Aligned.opens {environment : Environment} {addressing : Addressing} {requested : String}
    {opening : Opening} (aligned : Aligned host node) (spared : node.spares command)
    (opens : Opens host environment command fang node after)
    (resolved : node.resolve addressing requested command = some opening)
    (alsoUses : fang.alsoUses = opening.alsoUses)
    (fresh : ∀ other ∈ node.fangs, other.id ≠ fang.id) : Aligned host after := by
  obtain ⟨routes, profiles⟩ := Prod.ext_iff.mp opens.opened.plan
  simp only [Node.plan] at routes profiles
  have fangs : after.fangs = node.fangs ++ [fang] := opens.opened.fangs
  refine ⟨routes ▸ aligned.routes, profiles ▸ aligned.profiles, ?_, ?_⟩
  · simpa [fangs, List.nodup_append, aligned.ids] using fresh
  · rw [routes, fangs]
    intro other opened peer
    rcases List.mem_append.mp opened with opened | opened
    · exact aligned.uses other opened peer
    rw [List.mem_singleton.mp opened, usesPeer_eq aligned.routes]
    rcases resolve_cases resolved opens.asked with
      ⟨_, direct⟩ | ⟨name, service, listed, rfl, named, several, _⟩
    · obtain ⟨provider, found, rfl⟩ := Option.map_eq_some_iff.mp direct
      have relay : fang.alsoUses = _ := alsoUses.trans (directResolve_uses found)
      rw [Fang.uses, relay]
      cases node.routes.find? (fun route => route.peer = fang.peer) <;> simp [eq_comm]
    · rw [spared service listed named] at several
      cases several

/-- One process, in which a route is never changed under an open Fang and no new
Fang gets the id of an open one. -/
def Steady (node : Node) : Event → Prop
  | .command command environments => node.spares command ∧
      ∀ listener ∈ (environments 0).listener, ∀ fang ∈ node.fangs, fang.id ≠ listener.1
  | .inbound _ => True
  | .restart _ => False

theorem Aligned.step {dialled : Dialled} (event : DialEvent)
    (aligned : Aligned host dialled.system.node)
    (steady : Steady dialled.system.node event.event) :
    Aligned host (dialled.step host event).system.node := by
  obtain ⟨event, requested⟩ := event
  cases event with
  | command command environments =>
    simp only [Dialled.step, Event.listening]
    generalize resolved : dialled.system.node.resolve host.toAddressing requested command = opening
    simp only [Control.step]
    split
    · cases serve_handles host command (fun index => (environments index).listening opening)
        dialled.system with
      | loyal loyal => exact aligned.loyal steady.1 loyal
      | opens fang opens =>
        obtain ⟨listener, opening, listens, rfl, id, alsoUses⟩ := listening_some opens.listener
        exact aligned.opens steady.1 opens resolved alsoUses (id ▸ steady.2 listener listens)
    · exact aligned
  | inbound operation =>
    obtain ⟨routes, profiles, ids, uses⟩ := aligned
    simp only [Dialled.step, Event.listening, Control.step]
    split <;> exact ⟨routes, profiles, ids, uses⟩
  | restart _ => exact steady.elim

theorem Aligned.leaves_iff {before after : System} {peer name : String}
    (aligned : Aligned host before.node)
    (narrows : Narrows host (survivingActive before.node peer true)
      (affectedIds before.node peer true) before after) (active : name ∈ before.node.activeProfiles)
    (opened : fang ∈ before.node.fangs)
    (belongs : fang.belongsTo before.node.fangProfiles name = true) :
    LeavesActive host before after name ↔ fang ∉ after.node.fangs := by
  have closed : fang.id ∈ affectedIds before.node peer true ↔ fang.uses peer = true := by
    simp only [affectedIds, if_true, List.mem_map, List.mem_filter]
    constructor
    · rintro ⟨other, ⟨listed, uses⟩, same⟩
      rwa [← List.inj_on_of_nodup_map aligned.ids listed opened same]
    · exact fun uses => ⟨fang, ⟨opened, uses⟩, rfl⟩
  have distinct := ((profileDocument_iff _ _).mp aligned.profiles).2.2
  simp only [Fang.belongsTo, List.any_eq_true, Bool.and_eq_true, decide_eq_true_eq] at belongs
  obtain ⟨profile, listed, ⟨⟨rfl, same⟩, _⟩, _⟩ := belongs
  rw [narrows.leaves_iff active, narrows.fangs, List.mem_filter, decide_eq_true_eq, not_and_not_right,
    closed, aligned.uses fang opened, ← same]
  constructor
  · rintro ⟨other, present, named, uses⟩ _
    rwa [← List.inj_on_of_nodup_map distinct present listed named]
  · exact fun uses => ⟨profile, listed, rfl, uses opened⟩

/-- From a node without Fangs whose routes and profiles pass their checks, as every
start leaves it, and after every run of one process that changes no route under an
open Fang: a change of an address that is saved takes an active profile out exactly
where it closes the Fang that is open for the profile. -/
theorem profiles_leave_with_their_fangs (host : Host) (first : Dialled) (events : List DialEvent)
    (idle : first.system.node.fangs = [])
    (routes : validateRoutes first.system.node.routes = true)
    (profiles : profileDocument host.toExternal first.system.node.fangProfiles = true)
    (steady : ∀ before event after, events = before ++ event :: after →
      Steady (run (Dialled.step host) first before).system.node event.event)
    (environments : Nat → Environment) (name address : String) :
    let before := (run (Dialled.step host) first events).system
    ∀ candidate after, changeAddress name address before.node.peers = some (true, candidate) →
      serve host (.packSetAddress name address) environments before = (.ok .addressUpdated, after) →
      ∀ profile ∈ before.node.activeProfiles, ∀ fang ∈ before.node.fangs,
        fang.belongsTo before.node.fangProfiles profile = true →
          (LeavesActive host before after profile ↔ fang ∉ after.node.fangs) := by
  intro before candidate after changed succeeded profile active fang opened belongs
  have aligned : Aligned host before.node :=
    run_invariant_of_steps (fun dialled : Dialled => Aligned host dialled.system.node)
      (fun dialled event => Steady dialled.system.node event.event)
      (fun _ event aligned steady => aligned.step event steady)
      ⟨routes, profiles, by simp [idle], by simp [idle]⟩ events steady
  have gives : Gives before.fresh (dispatch host environments (.packSetAddress name address))
      (fun _ next => Narrows host (survivingActive before.node name true)
        (affectedIds before.node name true) before.fresh next) :=
    follows_live (follows_check (fun _ => follows_check (fun _ =>
      packSetAddress_narrows changed)))
  have ended := gives.2 .addressUpdated (congrArg Prod.fst succeeded)
  rw [show (execute (dispatch host environments (.packSetAddress name address))
    before.fresh).2 = after from congrArg Prod.snd succeeded] at ended
  exact aligned.leaves_iff ⟨ended.active, ended.fangs, ended.persisted⟩ active opened belongs

end Recording

namespace Sample

def howl : Fang := ⟨"first", "howler", "127.0.0.1:8000", "127.0.0.1:22", []⟩

def relayKey : String := base64Encode (List.replicate 32 3)

def relayFingerprint : String :=
  (fingerprintFromPublicKeyB64 Sample.host.toExternal relayKey).getD ""

def befriending : DialEvent :=
  ⟨smoothly (.packAdd "relay" relayFingerprint "tcp://127.0.0.1:7001" relayKey), ""⟩

def opening : DialEvent := ⟨.command (.fangOpenProfile "howl") willing, ""⟩

def rerouting : DialEvent := ⟨smoothly (.routeSet "howler" "relay" "tcp"), ""⟩

def waking : Dialled := ⟨⟨awaiting.system.node, rested, true, false⟩, fun _ => []⟩

def howled : System := (run (Dialled.step Sample.host) waking [opening]).system

def rerouted : System := (run (Dialled.step Sample.host) waking [befriending, opening, rerouting]).system

def readdressed (name : String) (system : System) : Except Code Status × System :=
  serve Sample.host (.packSetAddress name "tcp://127.0.0.1:7002") (fun _ => Sample.environment)
    system

theorem howled_spec :
    (howled.node.activeProfiles, howled.node.fangProfiles, howled.node.fangs) =
        (["howl"], [howling], [howl]) ∧
      (changeAddress "howler" "tcp://127.0.0.1:7002" howled.node.peers).map Prod.fst = some true ∧
      ((readdressed "howler" howled).1, (readdressed "howler" howled).2.node.fangs) = (.ok .addressUpdated, []) := by
  decide +kernel

theorem eq_of_replied {reply : Except Code Status} {served : Except Code Status × System}
    (replied : served.1 = reply) : served = (reply, served.2) := by
  rw [← replied]

theorem rerouted_reachable : Reachable Sample.host rerouted :=
  run_invariant (fun dialled : Dialled => Reachable Sample.host dialled.system)
    (fun _ _ reachable => reachable.step _) rested_reachable _

theorem rerouted_spec :
    (rerouted.node.activeProfiles, rerouted.node.fangProfiles, rerouted.node.fangs) =
        (["howl"], [howling], [howl]) ∧
      ((readdressed "relay" rerouted).1, (readdressed "relay" rerouted).2.node.generation,
        (readdressed "relay" rerouted).2.node.activeProfiles, (readdressed "relay" rerouted).2.node.fangs,
        (readdressed "relay" rerouted).2.den activeFangsFile) =
        (.ok .addressUpdated, none, [], [howl], some (Sample.host.namesText [])) := by
  decide +kernel

end Sample

theorem howled_profile_leaves_with_its_fang :
    Sample.howled.node.fangs = [Sample.howl] ∧ (Sample.readdressed "howler" Sample.howled).2.node.fangs = [] ∧
      LeavesActive Sample.host Sample.howled (Sample.readdressed "howler" Sample.howled).2 "howl" := by
  have spec := Sample.howled_spec
  unfold Sample.howled Sample.readdressed at spec ⊢
  obtain ⟨before, changed, after⟩ := spec
  simp only [Prod.mk.injEq] at before after
  obtain ⟨active, profiles, fangs⟩ := before
  obtain ⟨⟨_, candidate⟩, changed, rfl⟩ := Option.map_eq_some_iff.mp changed
  have steady := (@forall_steps_cons _ _ (Dialled.step Sample.host)
    (fun dialled event => Steady dialled.system.node event.event) Sample.waking Sample.opening []).mpr
    ⟨⟨trivial, fun _ _ _ opened => by cases opened⟩, fun before _ _ split => by cases before <;> cases split⟩
  have leaves := profiles_leave_with_their_fangs Sample.host Sample.waking [Sample.opening] rfl
    (by decide) (by decide +kernel) steady (fun _ => Sample.environment) "howler"
    "tcp://127.0.0.1:7002" candidate _ changed (Sample.eq_of_replied after.1)
  simp only [active, fangs, profiles, after.2] at leaves
  refine ⟨fangs, after.2, (leaves "howl" ?_ Sample.howl ?_ (by decide)).mpr List.not_mem_nil⟩
  · exact List.mem_singleton_self _
  · exact List.mem_singleton_self _

/-- A profile that is routed through the member only since its Fang was opened leaves
the active ones, and the Fang stays open. -/
theorem rerouted_profile_leaves_without_its_fang :
    Reachable Sample.host Sample.rerouted ∧
      (Sample.readdressed "relay" Sample.rerouted).1 = .ok .addressUpdated ∧
      LeavesActive Sample.host Sample.rerouted (Sample.readdressed "relay" Sample.rerouted).2 "howl" ∧
      Sample.howl ∈ Sample.rerouted.node.fangs ∧
      Sample.howl.belongsTo Sample.rerouted.node.fangProfiles "howl" = true ∧
      Sample.howl ∈ (Sample.readdressed "relay" Sample.rerouted).2.node.fangs := by
  have reachable := Sample.rerouted_reachable
  obtain ⟨before, after⟩ := Sample.rerouted_spec
  generalize Sample.readdressed "relay" Sample.rerouted = result at after ⊢
  generalize Sample.rerouted = system at before reachable ⊢
  simp only [Prod.mk.injEq] at before after
  obtain ⟨active, profiles, fangs⟩ := before
  obtain ⟨replied, flat, none, left, file⟩ := after
  refine ⟨reachable, replied, ⟨by simp [active], by simp [none], ?_⟩, by simp [fangs],
    by rw [profiles]; decide, by simp [left]⟩
  simp only [ActivePersisted, flat, none]
  exact file

end Werewolf.Control
