import Werewolf.Control.ConfigurationProperties
import Werewolf.Control.Dial
import Werewolf.Control.SampleHost
import Werewolf.Control.WriteProperties

/-! The services of the operator. A service is stored as its first provider and
the fallbacks behind it; the commands work on the one list of its providers. -/

namespace Werewolf.Control
open Library Procedure Policy
open Relation (ReflTransGen)

variable {host : Host} {system : System}

section Serving

variable {α : Type} (part : Node → α) {candidate : Except Code α}

inductive Served (old : α) (candidate : Except Code α) : Except Code Status → α → Prop where
  | saved {value : α} (status : Status) (accepted : candidate = .ok value) :
      Served old candidate (.ok status) value
  | refused (error : Code) : Served old candidate (.error error) old

theorem Served.of_replies {action : Action Status}
    (replies : Replies system action (fun _ next => part next.node = part system.node)
      (fun _ next => candidate = .ok (part next.node))) :
    Served (part system.node) candidate (execute action system).1 (part (execute action system).2.node) := by
  obtain ⟨failed, returned⟩ := replies
  cases result : (execute action system).1 with
  | error error =>
    rw [failed error result]
    exact .refused error
  | ok status => exact .saved status (returned status result)

theorem store_part {write : Storage.Write} {fate : Storage.Replacement} {publish : Node → Node}
    (apart : ∀ node, part { node with storageDegraded := true } = part node) {next : System}
    (stored : next = (system.store write fate publish).2) (unsaved : (system.store write fate publish).1 = false) :
    part next.node = part system.node := by
  subst stored
  unfold System.store System.settle at unsaved ⊢
  split
  · rename_i running
    rw [if_pos running] at unsaved
    split at unsaved
    · cases unsaved
    · exact apart _
    · rfl
  · rfl

theorem persistFile_replies {environment : Environment} {file : String} {text : α → List UInt8}
    {publish : α → Node → Node} {refusal : Code} {status : Status}
    (apart : ∀ node, part { node with storageDegraded := true } = part node)
    (published : ∀ value node, part (publish value node) = value) :
    Replies system (persistFile environment candidate file text publish refusal status)
      (fun _ next => part next.node = part system.node)
      (fun _ next => candidate = .ok (part next.node)) := by
  cases candidate with
  | error code => exact replies_throw rfl
  | ok value =>
    change Replies system (store ⟨file, text value⟩ (environment.documents 0) (publish value) >>=
      fun saved => check saved refusal >>= fun _ => pure status) _ _
    refine replies_alter_bind (replies_check_bind ?_ ?_)
    · exact store_part part apart rfl
    · intro saved
      refine replies_pure ?_
      rw [store_true saved, published]

theorem serve_served {command : Command} {environments : Nat → Environment}
    (carried : Replies system.fresh (carryOut host environments system.node command)
      (fun _ next => part next.node = part system.node)
      (fun _ next => candidate = .ok (part next.node))) :
    Served (part system.node) candidate (serve host command environments system).1
      (part (serve host command environments system).2.node) :=
  @Served.of_replies system.fresh _ part _ _ (replies_alter_bind
    (replies_check_bind (fun _ => rfl) (fun _ => replies_check_bind (fun _ => rfl) (fun _ => carried))))

end Serving

inductive ServiceCommand where
  | add (name peer target kind : String)
  | remove (name : String)
  | providerAdd (name peer target kind : String)
  | providerRemove (name peer : String)

namespace ServiceCommand

def command : ServiceCommand → Command
  | add name peer target kind => .serviceAdd name peer target kind
  | remove name => .serviceRemove name
  | providerAdd name peer target kind => .serviceProviderAdd name peer target kind
  | providerRemove name peer => .serviceProviderRemove name peer

def candidate (services : List ServiceDefinition) : ServiceCommand → Except Code (List ServiceDefinition)
  | add name peer target kind => serviceAdd services name peer target kind
  | remove name => serviceRemove services name
  | providerAdd name peer target kind => serviceProviderAdd services name peer target kind
  | providerRemove name peer => serviceProviderRemove services name peer

def OneChanged (name : String) (before after : List ServiceDefinition)
    (providers : List (String × String) → List (String × String)) : Prop :=
  ∃ front old new back, before = front ++ old :: back ∧ after = front ++ new :: back ∧
    old.name = name ∧ new.name = name ∧ new.kind = old.kind ∧
      new.providers = providers old.providers ∧ new.providers ≠ old.providers

def Changes (before after : List ServiceDefinition) : ServiceCommand → Prop
  | add name peer target kind => ∃ kind', serviceKind kind = some kind' ∧
      after = before ++ [⟨name, peer, target, kind', []⟩]
  | remove name => after = before.filter (fun service => service.name ≠ name) ∧
      ∃ service ∈ before, service.name = name
  | providerAdd name peer target _ =>
      OneChanged name before after (fun providers => providers ++ [(peer, target)])
  | providerRemove name peer =>
      OneChanged name before after (fun providers => providers.filter (fun it => it.1 ≠ peer))

end ServiceCommand

structure SoundServices (services : List ServiceDefinition) : Prop where
  names : (services.map (·.name)).Nodup
  some : ∀ service ∈ services, 1 ≤ service.providers.length
  few : ∀ service ∈ services, service.providers.length ≤ 4
  peers : ∀ service ∈ services, (service.providers.map (·.1)).Nodup

theorem validateServices_sound {services : List ServiceDefinition}
    (valid : validateServices services = true) : SoundServices services := by
  simp only [validateServices, validateProviders, maxProviders, Bool.and_eq_true, List.all_eq_true,
    decide_eq_true_eq] at valid
  obtain ⟨each, names⟩ := valid
  refine ⟨names, fun service _ => ?_, fun service listed => ?_, fun service listed => ?_⟩
  · simp [ServiceDefinition.providers]
  · have few := (each service listed).1.1.1.1.1
    simpa [ServiceDefinition.providers] using few
  · exact (each service listed).1.1.1.2

section Candidates

open ServiceCommand

variable {services next : List ServiceDefinition} {name peer : String}

private theorem validated_eq {candidate : List ServiceDefinition}
    (accepted : validated candidate = .ok next) : next = candidate :=
  (ite_ok_iff.mp accepted).2.symm

theorem changeService_ok {change : ServiceDefinition → Except Code ServiceDefinition}
    (changed : changeService name change services = .ok next) :
    ∃ front old new back, services = front ++ old :: back ∧ next = front ++ new :: back ∧
      old.name = name ∧ change old = .ok new := by
  induction services generalizing next with
  | nil => cases changed
  | cons service rest ih =>
    simp only [changeService] at changed
    split at changed
    · rename_i named
      cases changing : change service with
      | error code => simp [changing, Except.map] at changed
      | ok new =>
        simp only [changing, Except.map, Except.ok.injEq] at changed
        exact ⟨[], service, new, rest, rfl, changed.symm, named, changing⟩
    · cases later : changeService name change rest with
      | error code => simp [later, Except.map] at changed
      | ok list =>
        simp only [later, Except.map, Except.ok.injEq] at changed
        obtain ⟨front, old, new, back, rfl, rfl, named, changing⟩ := ih later
        exact ⟨service :: front, old, new, back, rfl, changed.symm, named, changing⟩

/-- The first provider is deleted by promoting the next one; for the list of providers
this is the same as deleting a fallback. -/
theorem withoutProvider_providers {old new : ServiceDefinition}
    (distinct : (old.providers.map (·.1)).Nodup) (changed : withoutProvider peer old = .ok new) :
    new.name = old.name ∧ new.kind = old.kind ∧ new.providers = old.providers.filter (fun it => it.1 ≠ peer) ∧
        new.providers ≠ old.providers := by
  unfold withoutProvider at changed
  split at changed
  · rename_i first
    cases fallbacks : old.fallbacks with
    | nil => simp [fallbacks] at changed
    | cons promoted rest =>
      simp only [fallbacks, Except.ok.injEq] at changed
      subst changed
      simp only [ServiceDefinition.providers, fallbacks, List.map_cons, List.map_map,
        List.nodup_cons, List.mem_cons, not_or, List.mem_map, not_exists, not_and,
        Function.comp_apply] at distinct
      obtain ⟨⟨other, others⟩, _⟩ := distinct
      have kept : ∀ it ∈ (promoted.peer, promoted.target) :: rest.map (fun provider =>
          (provider.peer, provider.target)), it.1 ≠ peer := by
        intro it listed
        rcases List.mem_cons.mp listed with rfl | later
        · exact fun same => other (first.trans same.symm)
        · obtain ⟨provider, within, rfl⟩ := List.mem_map.mp later
          exact fun same => others provider within (same.trans first.symm)
      refine ⟨rfl, rfl, ?_, ?_⟩
      · rw [ServiceDefinition.providers, ServiceDefinition.providers, fallbacks, List.map_cons,
          List.filter_cons_of_neg (by simpa using first),
          List.filter_eq_self.mpr (fun it listed => by simpa using kept it listed)]
      · intro same
        have lengths := congrArg List.length same
        simp [ServiceDefinition.providers, fallbacks] at lengths
  · rename_i first
    simp only at changed
    split at changed
    · cases changed
    · rename_i fewer
      cases changed
      refine ⟨rfl, rfl, ?_, ?_⟩
      · rw [ServiceDefinition.providers, ServiceDefinition.providers,
          List.filter_cons_of_pos (by simpa using first), List.filter_map]
        rfl
      · intro same
        have lengths := congrArg List.length same
        simp only [ServiceDefinition.providers, List.length_cons, List.length_map,
          Nat.add_right_cancel_iff] at lengths
        exact fewer lengths

theorem candidate_changes {command : ServiceCommand} (sound : SoundServices services)
    (accepted : command.candidate services = .ok next) : command.Changes services next := by
  cases command with
  | add name peer target kind =>
    simp only [candidate, serviceAdd, ite_eq_ok_iff] at accepted
    obtain ⟨_, _, accepted⟩ := accepted
    split at accepted
    · cases accepted
    · rename_i kind' known
      exact ⟨kind', known, validated_eq accepted⟩
  | remove name =>
    simp only [candidate, serviceRemove, ite_eq_ok_iff] at accepted
    obtain ⟨_, fewer, accepted⟩ := accepted
    refine ⟨validated_eq accepted, ?_⟩
    by_contra absent
    refine fewer (congrArg List.length (List.filter_eq_self.mpr (fun service listed => ?_)))
    exact decide_eq_true (fun same => absent ⟨service, listed, same⟩)
  | providerAdd name peer target kind =>
    simp only [candidate, serviceProviderAdd, bind_eq_ok] at accepted
    obtain ⟨_, changed, accepted⟩ := accepted
    obtain ⟨front, old, new, back, split, rebuilt, named, changing⟩ := changeService_ok changed
    split at changing
    · cases changing
    cases changing
    refine ⟨front, old, _, back, split, (validated_eq accepted).trans rebuilt, named, named, rfl, ?_, ?_⟩ <;>
      simp [ServiceDefinition.providers]
  | providerRemove name peer =>
    simp only [candidate, serviceProviderRemove, bind_eq_ok] at accepted
    obtain ⟨_, changed, accepted⟩ := accepted
    obtain ⟨front, old, new, back, split, rebuilt, named, changing⟩ := changeService_ok changed
    have listed : old ∈ services := by simp [split]
    obtain ⟨name', kind', providers, fewer⟩ :=
      withoutProvider_providers (sound.peers old listed) changing
    exact ⟨front, old, new, back, split, (validated_eq accepted).trans rebuilt, named,
      name'.trans named, kind', providers, fewer⟩

theorem candidate_valid {command : ServiceCommand}
    (accepted : command.candidate services = .ok next) : validateServices next = true := by
  cases command with
  | add => exact serviceAdd_valid accepted
  | remove => exact serviceRemove_valid accepted
  | providerAdd => exact serviceProviderAdd_valid accepted
  | providerRemove => exact serviceProviderRemove_valid accepted

theorem serve_services (host : Host) (system : System) (command : ServiceCommand) (environments : Nat → Environment) :
    Served system.node.services (command.candidate system.node.services)
      (serve host command.command environments system).1
      (serve host command.command environments system).2.node.services := by
  refine serve_served Node.services ?_
  cases command <;> exact persistFile_replies _ (fun _ => rfl) (fun _ _ => rfl)

end Candidates

inductive ServiceStep (host : Host) : System → System → Prop where
  | command (system : System) (command : ServiceCommand) (environments : Nat → Environment) :
      ServiceStep host system (step host system (.command command.command environments))
  | other {before after : System} (same : after.node.services = before.node.services) :
      ServiceStep host before after

theorem services_valid {before after : System} (steps : ReflTransGen (ServiceStep host) before after)
    (valid : validateServices before.node.services = true) :
    validateServices after.node.services = true := by
  refine invariant_of_steps (fun system => validateServices system.node.services = true) ?_ steps valid
  intro before after taken valid
  cases taken with
  | other same => rwa [same]
  | command command environments =>
    simp only [step]
    split
    · have served := serve_services host before command environments
      generalize (serve host command.command environments before).1 = result,
        (serve host command.command environments before).2.node.services = services at served
      cases served with
      | saved status accepted => exact candidate_valid accepted
      | refused => exact valid
    · exact valid

section Resolving

variable {addressing : Addressing} {node : Node} {requested : String}
  {provider : String × String} {providers : List (String × String)}
  {service : ServiceDefinition}

theorem directResolve_of_provider (resolves : (providerResolve addressing node requested provider).isSome) :
    (directResolve addressing node requested provider.1 provider.2).isSome := by
  obtain ⟨resolved, found⟩ := Option.isSome_iff_exists.mp resolves
  simp only [providerResolve, bind_eq_some] at found
  obtain ⟨record, listed, path, reached, _⟩ := found
  have direct : (directPath addressing node.peers node.routes requested record provider.1).isSome := by
    unfold providerPath pathTo at reached
    unfold directPath pathTo
    cases routed : node.routes.find? (fun route => route.peer = provider.1) with
    | some route =>
      simp only [routed] at reached ⊢
      rw [reached]
      rfl
    | none =>
      simp only [routed, Option.bind_eq_some_iff] at reached
      obtain ⟨transport, selected, _⟩ := reached
      cases transport <;> simp [selected]
  obtain ⟨reaching, found⟩ := Option.isSome_iff_exists.mp direct
  simp [directResolve, listed, found]

theorem providerResolve_named {resolved : Provider}
    (found : providerResolve addressing node requested provider = some resolved) :
    (resolved.peer, resolved.remote) = provider := by
  simp only [providerResolve, bind_eq_some, pure, Option.some.injEq] at found
  obtain ⟨record, _, path, _, rfl⟩ := found
  rfl

theorem mapM_providers {resolved : List Provider}
    (found : providers.mapM (providerResolve addressing node requested) = some resolved) :
    resolved.map (fun provider => (provider.peer, provider.remote)) = providers := by
  induction providers generalizing resolved with
  | nil =>
    cases found
    rfl
  | cons provider providers ih =>
    simp only [List.mapM_cons, bind_eq_some, pure, Option.some.injEq] at found
    obtain ⟨first, now, rest, later, rfl⟩ := found
    rw [List.map_cons, providerResolve_named now, ih later]

theorem mapM_isSome (each : ∀ provider ∈ providers, (providerResolve addressing node requested provider).isSome) :
    (providers.mapM (providerResolve addressing node requested)).isSome := by
  induction providers with
  | nil => rfl
  | cons provider providers ih =>
    obtain ⟨first, now⟩ := Option.isSome_iff_exists.mp (each provider List.mem_cons_self)
    obtain ⟨rest, later⟩ := Option.isSome_iff_exists.mp
      (ih (fun it listed => each it (List.mem_cons_of_mem _ listed)))
    simp [List.mapM_cons, now, later]

structure Resolves (addressing : Addressing) (node : Node) (requested «local» : String)
    (service : ServiceDefinition) : Prop where
  exact : ∀ opening,
    node.resolve addressing requested (.serviceConnect service.name «local») = some opening →
      opening.providers.map (fun provider => (provider.peer, provider.remote)) = service.providers
  total : requested ≠ "tcp-plain" →
    (∀ provider ∈ service.providers,
      (providerResolve addressing node requested provider).isSome) →
      (node.resolve addressing requested (.serviceConnect service.name «local»)).isSome

theorem find_service {services : List ServiceDefinition} (distinct : (services.map (·.name)).Nodup)
    (listed : service ∈ services) :
    services.find? (fun other => other.name = service.name) = some service := by
  induction services with
  | nil => cases listed
  | cons first rest ih =>
    obtain ⟨fresh, distinct⟩ := List.nodup_cons.mp distinct
    rcases List.mem_cons.mp listed with rfl | later
    · simp
    · rw [List.find?_cons_of_neg, ih distinct later]
      exact fun same => fresh (List.mem_map.mpr ⟨service, later, (of_decide_eq_true same).symm⟩)

theorem resolves_of_sound {«local» : String} (sound : SoundServices node.services)
    (listed : service ∈ node.services) :
    Resolves addressing node requested «local» service := by
  have found := find_service sound.names listed
  have providers : service.fallbacks.isEmpty = true → service.providers = [(service.peer, service.target)] := by
    intro empty
    simp [ServiceDefinition.providers, List.isEmpty_iff.mp empty]
  refine ⟨fun opening opened => ?_, fun secure each => ?_⟩
  · simp only [Node.resolve, found, Option.bind_eq_bind, Option.bind_some] at opened
    split at opened
    · rename_i empty
      obtain ⟨provider, resolved, rfl⟩ := Option.map_eq_some_iff.mp opened
      simp only [directResolve, bind_eq_some, pure, Option.some.injEq] at resolved
      obtain ⟨record, _, path, _, rfl⟩ := resolved
      rw [providers empty]
      rfl
    · obtain ⟨resolved, all, rfl⟩ := Option.map_eq_some_iff.mp opened
      simp only [failoverResolve, bind_eq_some] at all
      obtain ⟨_, _, all⟩ := all
      exact mapM_providers all
  · simp only [Node.resolve, found, Option.bind_eq_bind, Option.bind_some]
    split
    · rw [Option.isSome_map]
      exact directResolve_of_provider (each _ List.mem_cons_self)
    · rw [Option.isSome_map]
      simpa [failoverResolve, Authority.require, secure] using mapM_isSome each

end Resolving

/-- Along every run the services are sound. A command that is accepted makes exactly
the change it names, one that is not changes nothing, and a Fang of a service dials
its providers in their order or is not opened. -/
theorem services_keep_their_providers (host : Host) (before system : System)
    (steps : ReflTransGen (ServiceStep host) before system) (valid : validateServices before.node.services = true) :
    SoundServices system.node.services ∧ (∀ (command : ServiceCommand) (environments : Nat → Environment),
        match serve host command.command environments system with
        | (.ok _, next) => command.Changes system.node.services next.node.services
        | (.error _, next) => next.node.services = system.node.services) ∧
      ∀ (addressing : Addressing) (requested «local» : String), ∀ service ∈ system.node.services,
        Resolves addressing system.node requested «local» service := by
  have sound := validateServices_sound (services_valid steps valid)
  refine ⟨sound, ?_, fun _ _ _ service listed => resolves_of_sound sound listed⟩
  intro command environments
  have served := serve_services host system command environments
  generalize serve host command.command environments system = reply at served ⊢
  obtain ⟨result, next⟩ := reply
  generalize kept : next.node.services = services at served
  cases served with
  | saved status accepted =>
      subst kept
      exact candidate_changes sound accepted
  | refused => exact kept

namespace Sample

def webServing : System :=
  step Sample.host started (smoothly (.serviceAdd "web" "luna" "[::1]:80" "http"))

def doubled : System :=
  step Sample.host webServing (smoothly (.serviceProviderAdd "web" "lupa" "[::1]:81" ""))

theorem doubled_sound :
    doubled.node.services = [⟨"web", "luna", "[::1]:80", .http, [⟨"lupa", "[::1]:81"⟩]⟩] ∧
      SoundServices doubled.node.services := by
  refine ⟨by decide +kernel, (services_keep_their_providers Sample.host started doubled ?_ ?_).1⟩
  · exact .tail (.single (.command started (.add "web" "luna" "[::1]:80" "http") _))
      (.command webServing (.providerAdd "web" "lupa" "[::1]:81" "") _)
  · decide +kernel

end Sample

end Werewolf.Control
