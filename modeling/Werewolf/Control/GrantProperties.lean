import Werewolf.Control.DialProperties
import Werewolf.Policy.GrantProperties

/-! The commands that change one exact grant of a Pack member. -/

namespace Werewolf.Control
open Library Procedure Governance Policy
open State hiding name
open Storage hiding name

variable {host : Host} {environment : Environment} {system : System}

def NamesPair (host : Host) (node : Node) (peer target fingerprint : String) (endpoint : SocketAddr) : Prop :=
  host.parseSocketAddr target = some endpoint ∧
    ∃ record, node.peers.find? (fun record => record.name = peer || record.fingerprint = peer) =
      some record ∧ record.fingerprint = fingerprint

theorem NamesPair.eq {node : Node} {peer target fingerprint other : String}
    {endpoint otherEnd : SocketAddr} (named : NamesPair host node peer target fingerprint endpoint)
    (again : NamesPair host node peer target other otherEnd) :
    fingerprint = other ∧ endpoint = otherEnd := by
  obtain ⟨read, record, found, rfl⟩ := named
  obtain ⟨readAgain, _, foundAgain, rfl⟩ := again
  cases read.symm.trans readAgain
  cases found.symm.trans foundAgain
  exact ⟨rfl, rfl⟩

theorem persistPolicy_saves (parsed : TargetPolicy) (status : Status) :
    Replies system (persistPolicy host environment parsed status)
      (fun _ next => next.node.targetPolicy = system.node.targetPolicy)
      (fun _ next => next.node.targetPolicy = parsed) := by
  refine replies_expect_bind rfl (fun canonical _ => replies_alter_bind ?_)
  refine replies_bind persist_saves (fun saved next saves => replies_check_bind ?_ ?_)
  · rintro rfl
    generalize next.node = node at saves ⊢
    cases saves with
    | refused => rfl
    | unsure => rfl
  · rintro rfl
    refine replies_pure ?_
    generalize next.node = node at saves ⊢
    cases saves with
    | durable number => rfl

theorem changeGrant_saves (change : TargetPolicy → String → SocketAddr → Option TargetPolicy)
    (refusal : Code) (status : Status) (peer target : String) :
    Replies system (changeGrant host environment change refusal status peer target)
      (fun _ next => next.node.targetPolicy = system.node.targetPolicy)
      (fun _ next => ∃ fingerprint endpoint, NamesPair host system.node peer target fingerprint endpoint ∧
        change system.node.targetPolicy fingerprint endpoint = some next.node.targetPolicy) := by
  refine replies_expect_bind rfl (fun endpoint read => replies_alter_bind ?_)
  refine replies_expect_bind rfl (fun record found => ?_)
  refine replies_expect_bind rfl (fun parsed changed => ?_)
  refine (persistPolicy_saves parsed status).imp fun _ next published => ?_
  exact ⟨record.fingerprint, endpoint, ⟨read, record, found, rfl⟩, published ▸ changed⟩

private theorem serve_grant {command : Command} {environments : Nat → Environment}
    {change : TargetPolicy → String → SocketAddr → Option TargetPolicy} {refusal : Code} {status : Status}
    {peer target : String} (carried : carryOut host environments system.fresh.node command =
      changeGrant host (environments 0) change refusal status peer target) :
    (∀ code, (serve host command environments system).1 = .error code →
      (serve host command environments system).2.node.targetPolicy = system.node.targetPolicy) ∧
    ∀ reply, (serve host command environments system).1 = .ok reply →
      ∃ fingerprint endpoint, NamesPair host system.node peer target fingerprint endpoint ∧
        change system.node.targetPolicy fingerprint endpoint =
          some (serve host command environments system).2.node.targetPolicy := by
  unfold serve
  rcases dispatch_cases host environments command system.fresh with
    ⟨code, refused⟩ | ⟨_, _, dispatched⟩
  · rw [refused]
    exact ⟨fun _ _ => rfl, fun _ replied => by cases replied⟩
  · rw [dispatched, carried]
    exact changeGrant_saves change refusal status peer target

section Serving

variable {peer target : String} {environments : Nat → Environment} {reply : Status}
  {after : System}

private theorem carryOut_targetAllow (host : Host) (environments : Nat → Environment) (node : Node)
    (peer target : String) :
    carryOut host environments node (.targetAllow peer target) =
      changeGrant host (environments 0) allowExact .targetPolicyInvalid .targetAllowed peer target :=
  rfl

private theorem carryOut_targetRemove (host : Host) (environments : Nat → Environment) (node : Node)
    (peer target : String) :
    carryOut host environments node (.targetRemove peer target) =
      changeGrant host (environments 0) removeExact .targetNotFound .targetRemoved peer target :=
  rfl

theorem serve_targetAllow (served : serve host (.targetAllow peer target) environments system = (.ok reply, after)) :
    ∃ fingerprint endpoint, NamesPair host system.node peer target fingerprint endpoint ∧
      allowExact system.node.targetPolicy fingerprint endpoint = some after.node.targetPolicy := by
  have changed :=
    (serve_grant (carryOut_targetAllow host environments system.fresh.node peer target)).2 reply
  rw [served] at changed
  exact changed rfl

theorem serve_targetRemove
    (served : serve host (.targetRemove peer target) environments system = (.ok reply, after)) :
    ∃ fingerprint endpoint, NamesPair host system.node peer target fingerprint endpoint ∧
      removeExact system.node.targetPolicy fingerprint endpoint = some after.node.targetPolicy := by
  have changed :=
    (serve_grant (carryOut_targetRemove host environments system.fresh.node peer target)).2 reply
  rw [served] at changed
  exact changed rfl

private theorem serve_unguarded {command : Command}
    {change : TargetPolicy → String → SocketAddr → Option TargetPolicy} {refusal : Code} {status : Status}
    (carried : carryOut host environments system.fresh.node command =
      changeGrant host (environments 0) change refusal status peer target) (refuses : ∀ fingerprint endpoint next,
      change system.node.targetPolicy fingerprint endpoint ≠ some next) :
    (serve host command environments system).2.node.targetPolicy = system.node.targetPolicy := by
  obtain ⟨failed, succeeded⟩ := serve_grant carried
  cases replied : (serve host command environments system).1 with
  | error code => exact failed code replied
  | ok reply =>
    obtain ⟨fingerprint, endpoint, _, changed⟩ := succeeded reply replied
    exact absurd changed (refuses fingerprint endpoint _)

end Serving

inductive ChangesGrant : Event → Prop where
  | allow (peer target : String) (environments : Nat → Environment) :
      ChangesGrant (.command (.targetAllow peer target) environments)
  | remove (peer target : String) (environments : Nat → Environment) :
      ChangesGrant (.command (.targetRemove peer target) environments)

theorem step_unguarded {event : Event} (changes : ChangesGrant event)
    (fixed : system.node.targetPolicy = .legacyAllow ∨ system.node.targetPolicy = .invalid) :
    (step host system event).node.targetPolicy = system.node.targetPolicy := by
  cases changes with
  | allow peer target environments =>
    simp only [step]
    split
    · refine serve_unguarded (carryOut_targetAllow host environments _ peer target)
        fun fingerprint endpoint next allowed => ?_
      obtain ⟨guarded, valid, _⟩ := allowExact_spec allowed
      exact fixed.elim guarded valid
    · rfl
  | remove peer target environments =>
    simp only [step]
    split
    · refine serve_unguarded (carryOut_targetRemove host environments _ peer target)
        fun fingerprint endpoint next removed => ?_
      obtain ⟨guarded, valid, _⟩ := removeExact_spec removed
      exact fixed.elim guarded valid
    · rfl

theorem run_unguarded {events : List Event} (changes : ∀ event ∈ events, ChangesGrant event)
    (fixed : system.node.targetPolicy = .legacyAllow ∨ system.node.targetPolicy = .invalid) :
    (run (step host) system events).node.targetPolicy = system.node.targetPolicy := by
  induction events generalizing system with
  | nil => rfl
  | cons event events ih =>
    have kept : (step host system event).node.targetPolicy = system.node.targetPolicy :=
      step_unguarded (changes event List.mem_cons_self) fixed
    rw [run_cons, ih (fun other member => changes other (List.mem_cons_of_mem event member))
      (by rw [kept]; exact fixed), kept]

/-- One grant is changed and nothing else, a grant that was new can be taken
back, and only grants are ever changed in this way. -/
theorem grant_commands_change_one_pair (host : Host) : (∀ system peer target environments reply after,
      serve host (.targetAllow peer target) environments system = (.ok reply, after) →
      ∃ fingerprint endpoint, NamesPair host system.node peer target fingerprint endpoint ∧
        SameElsewhere host.toAddressing system.node.targetPolicy after.node.targetPolicy fingerprint endpoint ∧
        DecidesLiteral host.toAddressing after.node.targetPolicy fingerprint endpoint (.ok [endpoint])) ∧
    (∀ system peer target environments reply after,
      serve host (.targetRemove peer target) environments system = (.ok reply, after) →
      ∃ fingerprint endpoint, NamesPair host system.node peer target fingerprint endpoint ∧
        SameElsewhere host.toAddressing system.node.targetPolicy after.node.targetPolicy fingerprint endpoint ∧
        DecidesLiteral host.toAddressing after.node.targetPolicy fingerprint endpoint (.error denied)) ∧
    (∀ system allowPeer allowTarget allowing allowReply granted later removePeer removeTarget
        removing removeReply after fingerprint endpoint,
      serve host (.targetAllow allowPeer allowTarget) allowing system = (.ok allowReply, granted) →
      NamesPair host system.node allowPeer allowTarget fingerprint endpoint →
      ¬system.node.targetPolicy.Permits fingerprint endpoint →
      later.node.targetPolicy = granted.node.targetPolicy →
      serve host (.targetRemove removePeer removeTarget) removing later = (.ok removeReply, after) →
      NamesPair host later.node removePeer removeTarget fingerprint endpoint →
      DecideAlike host.toAddressing after.node.targetPolicy system.node.targetPolicy) ∧
    (∀ system events, (∀ event ∈ events, ChangesGrant event) →
      system.node.targetPolicy = .legacyAllow ∨ system.node.targetPolicy = .invalid →
      (run (step host) system events).node.targetPolicy = system.node.targetPolicy) := by
  refine ⟨fun system peer target environments reply after served => ?_,
    fun system peer target environments reply after served => ?_, ?_,
    fun system events changes fixed => run_unguarded changes fixed⟩
  · obtain ⟨fingerprint, endpoint, named, allowed⟩ := serve_targetAllow served
    exact ⟨fingerprint, endpoint, named, allowExact_decides host.toAddressing allowed⟩
  · obtain ⟨fingerprint, endpoint, named, removed⟩ := serve_targetRemove served
    exact ⟨fingerprint, endpoint, named, removeExact_decides host.toAddressing removed⟩
  · intro system allowPeer allowTarget allowing allowReply granted later removePeer removeTarget
      removing removeReply after fingerprint endpoint allows allowed fresh kept removes removed
    obtain ⟨otherPrint, otherEnd, otherNamed, changed⟩ := serve_targetAllow allows
    obtain ⟨rfl, rfl⟩ := otherNamed.eq allowed
    obtain ⟨lastPrint, lastEnd, lastNamed, restored⟩ := serve_targetRemove removes
    obtain ⟨rfl, rfl⟩ := lastNamed.eq removed
    rw [kept] at restored
    exact removeExact_allowExact host.toAddressing fresh changed restored

namespace Sample

def reading : Host :=
  { Sample.host with
    parseSocketAddr := fun target =>
      if target = "127.0.0.1:80" then some Policy.Sample.endpoint else none }

def granting : Except Code Status × System :=
  serve reading (.targetAllow "howler" "127.0.0.1:80") (fun _ => Sample.environment) befriended

def regretting : Except Code Status × System :=
  serve reading (.targetRemove memberFingerprint "127.0.0.1:80") (fun _ => Sample.environment)
    granting.2

theorem replies_spec : (granting.1, regretting.1) = (.ok .targetAllowed, .ok .targetRemoved) := by
  decide +kernel

theorem peers_granting : granting.2.node.peers = befriended.node.peers := by
  decide +kernel

end Sample

open Sample

theorem granted_endpoint_is_taken_back : DecidesLiteral reading.toAddressing Sample.granting.2.node.targetPolicy
        memberFingerprint Policy.Sample.endpoint (.ok [Policy.Sample.endpoint]) ∧
      DecideAlike reading.toAddressing regretting.2.node.targetPolicy .deny := by
  have replies := Prod.mk.inj replies_spec
  have granted : serve reading (.targetAllow "howler" "127.0.0.1:80")
      (fun _ => Sample.environment) befriended = (.ok .targetAllowed, Sample.granting.2) := by
    rw [← replies.1]
    exact (Prod.eta Sample.granting).symm
  have regretted : serve reading (.targetRemove memberFingerprint "127.0.0.1:80")
      (fun _ => Sample.environment) Sample.granting.2 = (.ok .targetRemoved, regretting.2) := by
    rw [← replies.2]
    exact (Prod.eta regretting).symm
  have named : NamesPair reading befriended.node "howler" "127.0.0.1:80"
      memberFingerprint Policy.Sample.endpoint := ⟨rfl, _, rfl, rfl⟩
  have namedAgain : NamesPair reading Sample.granting.2.node memberFingerprint
      "127.0.0.1:80" memberFingerprint Policy.Sample.endpoint := by
    refine ⟨rfl, ?_⟩
    rw [peers_granting]
    exact ⟨_, rfl, rfl⟩
  obtain ⟨allows, _, restores, _⟩ := grant_commands_change_one_pair reading
  obtain ⟨fingerprint, endpoint, pair, _, decides⟩ := allows _ _ _ _ _ _ granted
  obtain ⟨rfl, rfl⟩ := pair.eq named
  refine ⟨decides, restores _ _ _ _ _ _ _ _ _ _ _ _ _ _ granted named ?_ rfl regretted namedAgain⟩
  rintro ⟨table, _, granting, _⟩
  cases granting

end Werewolf.Control
