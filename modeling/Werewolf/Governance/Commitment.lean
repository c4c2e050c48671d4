import Werewolf.Governance.RunProperties

/-! The hash of a head commits to everything derived from the chain behind it.
The fork fence is the one field that is not derived from the chain. -/

namespace Werewolf.Governance
open Library

def Head.chain (head : Head) : Head := { head with forked := false }

theorem chain_of_unforked {head : Head} (unforked : head.forked = false) : head.chain = head := by
  cases head
  cases unforked
  rfl

inductive Derived (crypto : Crypto) (cores : Set Core) : Head → Prop where
  | genesis {core : Core} {threshold : UInt8} {keys : List Key} (member : core ∈ cores)
      (body : core.body = .genesis threshold keys) :
      Derived crypto cores (Head.initial crypto core threshold keys)
  | next {head effect : Head} {core : Core} (derived : Derived crypto cores head)
      (member : core ∈ cores) (previous : core.previous = head.hash)
      (accepted : applyBody crypto head core = .ok effect) :
      Derived crypto cores (effect.advance crypto core)

theorem Derived.mono {crypto : Crypto} {fewer more : Set Core} {head : Head}
    (included : fewer ⊆ more) (derived : Derived crypto fewer head) :
    Derived crypto more head := by
  induction derived with
  | genesis member body => exact .genesis (included member) body
  | next _ member previous accepted ih => exact .next ih (included member) previous accepted

theorem applyBody_chain {crypto : Crypto} {head effect : Head} {core : Core}
    (accepted : applyBody crypto head core = .ok effect) :
    applyBody crypto head.chain core = .ok effect.chain := by
  unfold applyBody at accepted ⊢
  cases body : core.body with
  | genesis threshold keys => simp [body] at accepted
  | rotation entries =>
    simp only [body, bind_eq_ok, return_eq_ok] at accepted ⊢
    obtain ⟨current, inForce, keys, kept, rfl⟩ := accepted
    exact ⟨current, inForce, keys, kept, rfl⟩
  | revocation keys =>
    simp only [body, bind_eq_ok, return_eq_ok] at accepted ⊢
    obtain ⟨_, checked, rfl⟩ := accepted
    exact ⟨(), checked, rfl⟩
  | admission keys =>
    simp only [body, bind_eq_ok, return_eq_ok] at accepted ⊢
    obtain ⟨_, checked, roster, admitted, rfl⟩ := accepted
    exact ⟨(), checked, roster, admitted, rfl⟩
  | activation =>
    simp only [body, ite_eq_ok_iff, Except.ok.injEq] at accepted ⊢
    obtain ⟨inactive, rfl⟩ := accepted
    exact ⟨inactive, rfl⟩
  | death =>
    simp only [body, Except.ok.injEq] at accepted ⊢
    subst accepted
    rfl

theorem Advances.chain {crypto : Crypto} {head effect : Head} {statement : Statement}
    {keys : List Key} (advances : Advances crypto head statement keys effect) :
    Advances crypto head.chain statement keys effect.chain where
  alive := advances.alive
  fenced flag := by cases flag
  network := advances.network
  sequence := advances.sequence
  previous := advances.previous
  inForce := advances.inForce
  signatures := advances.signatures
  body := applyBody_chain advances.body

def presentedCores (presentations : List Presentation) : Set Core :=
  { core | ∃ presentation ∈ presentations, presentation.1.core = core }

theorem history_last {crypto : Crypto} {presentations : List Presentation} {head : Head}
    (reached : history crypto presentations = some head) :
    ∃ core ∈ presentedCores presentations, core.hash crypto = head.hash ∧
      core.sequence = head.sequence ∧ core.networkId = head.networkId := by
  induction presentations using List.reverseRecOn generalizing head with
  | nil => cases reached
  | append_singleton presentations presentation ih =>
    obtain ⟨statement, pin⟩ := presentation
    have older {past : Head} (known : history crypto presentations = some past)
        (hash : past.hash = head.hash) (sequence : past.sequence = head.sequence)
        (network : past.networkId = head.networkId) :
        ∃ core ∈ presentedCores (presentations ++ [(statement, pin)]),
          core.hash crypto = head.hash ∧ core.sequence = head.sequence ∧ core.networkId = head.networkId := by
      obtain ⟨core, ⟨presentation, member, rfl⟩, same⟩ := ih known
      rw [hash, sequence, network] at same
      exact ⟨_, ⟨presentation, List.mem_append_left _ member, rfl⟩, same⟩
    have member : statement.core ∈ presentedCores (presentations ++ [(statement, pin)]) :=
      ⟨(statement, pin), by simp, rfl⟩
    have last : present crypto (history crypto presentations) (statement, pin) = some head := by
      simpa [history] using reached
    rcases present_cases crypto (history crypto presentations) statement pin with same |
        ⟨_, _, _, starts, started⟩ | ⟨before, _, _, known, advances, advanced⟩ |
        ⟨before, _, _, known, _, fenced⟩
    · exact older (same.symm.trans last) rfl rfl rfl
    · cases started.symm.trans last
      exact ⟨statement.core, member, rfl, starts.sequence, rfl⟩
    · cases advanced.symm.trans last
      have network := (advances.extends (history_wellFormed known)).networkId
      exact ⟨statement.core, member, rfl, rfl, advances.network.trans network.symm⟩
    · cases fenced.symm.trans last
      exact older known rfl rfl rfl

theorem present_derived {crypto : Crypto} {cores : Set Core} (head : Option Head) (presentation : Presentation)
    (member : presentation.1.core ∈ cores) (derived : ∀ before ∈ head, Derived crypto cores before.chain) :
    ∀ after ∈ present crypto head presentation, Derived crypto cores after.chain := by
  obtain ⟨statement, pin⟩ := presentation
  intro after reached
  rcases present_cases crypto head statement pin with same | ⟨_, _, _, starts, started⟩ |
      ⟨before, _, _, rfl, advances, advanced⟩ | ⟨before, _, _, rfl, _, fenced⟩
  · exact derived after (same ▸ reached)
  · cases started.symm.trans reached
    exact .genesis member starts.body
  · cases advanced.symm.trans reached
    exact .next (derived before rfl) member advances.previous (applyBody_chain advances.body)
  · cases fenced.symm.trans reached
    exact derived before rfl

theorem history_derived {crypto : Crypto} {presentations : List Presentation} {head : Head}
    (reached : history crypto presentations = some head) :
    Derived crypto (presentedCores presentations) head.chain := by
  refine run_invariant_of_steps (fun state : Option Head => ∀ before ∈ state,
      Derived crypto (presentedCores presentations) before.chain)
    (fun _ presentation => presentation.1.core ∈ presentedCores presentations)
    (fun state presentation derived member => present_derived state presentation member derived)
    (by simp) presentations ?_ head reached
  intro before presentation after split
  exact ⟨presentation, by simp [split], rfl⟩

theorem Derived.eq_of_hash {crypto : Crypto} {cores : Set Core} {left right : Head}
    (collisionFree : CollisionFreeOn crypto cores) (leftDerived : Derived crypto cores left)
    (rightDerived : Derived crypto cores right) (same : left.hash = right.hash) :
    left = right := by
  -- Equal hashes give equal cores, and a core names the hash of the head before it.
  induction leftDerived generalizing right with
  | genesis member body =>
    cases rightDerived with
    | genesis otherMember otherBody =>
      cases collisionFree.eq_of_hash member otherMember same
      cases body.symm.trans otherBody
      rfl
    | next _ otherMember _ accepted =>
      cases collisionFree.eq_of_hash member otherMember same
      simp [applyBody, body] at accepted
  | next _ member previous accepted ih =>
    cases rightDerived with
    | genesis otherMember otherBody =>
      cases collisionFree.eq_of_hash member otherMember same
      simp [applyBody, otherBody] at accepted
    | next otherDerived otherMember otherPrevious otherAccepted =>
      cases collisionFree.eq_of_hash member otherMember same
      cases ih otherDerived (previous.symm.trans otherPrevious)
      cases accepted.symm.trans otherAccepted
      rfl

/-- Two heads of any two runs with the same hash differ at most in the fence. -/
theorem hash_commits (crypto : Crypto) (left right : List Presentation) (leftHead rightHead : Head)
    (collisionFree : CollisionFreeOn crypto (presentedCores left ∪ presentedCores right))
    (leftReached : history crypto left = some leftHead) (rightReached : history crypto right = some rightHead)
    (same : leftHead.hash = rightHead.hash) :
    { leftHead with forked := rightHead.forked } = rightHead := by
  have leftDerived : Derived crypto (presentedCores left ∪ presentedCores right) leftHead.chain :=
    (history_derived leftReached).mono Set.subset_union_left
  have rightDerived : Derived crypto (presentedCores left ∪ presentedCores right) rightHead.chain :=
    (history_derived rightReached).mono Set.subset_union_right
  have chains := leftDerived.eq_of_hash collisionFree rightDerived same
  exact congrArg (fun head : Head => { head with forked := rightHead.forked }) chains

def Sample.resignedRun : List Presentation :=
  [(signedWith 1 genesis, pin), (signedWith 2 genesis, none), (signedWith 1 rotation, none)]

theorem collisionFreeOn_of_nodup {crypto : Crypto} {cores : List Core} {subset : Set Core}
    (distinct : (cores.map (Core.hash crypto)).Nodup) (listed : ∀ core ∈ subset, core ∈ cores) :
    CollisionFreeOn crypto subset := by
  rintro _ ⟨left, leftMember, rfl⟩ _ ⟨right, rightMember, rfl⟩ same
  rw [List.inj_on_of_nodup_map distinct (listed left leftMember) (listed right rightMember) same]

/-- A fenced node and one that saw other signatures and no conflict. -/
theorem fenced_and_unfenced_agree : ∃ fenced plain, history Sample.crypto Sample.fencedRun = some fenced ∧
      history Sample.crypto Sample.resignedRun = some plain ∧
      fenced.forked = true ∧ plain.forked = false ∧
      { fenced with forked := plain.forked } = plain := by
  have fenced : history Sample.crypto Sample.fencedRun =
      some ((history Sample.crypto Sample.fencedRun).get (by decide +kernel)) := by simp
  have plain : history Sample.crypto Sample.resignedRun =
      some ((history Sample.crypto Sample.resignedRun).get (by decide +kernel)) := by simp
  have collisionFree : CollisionFreeOn Sample.crypto
      (presentedCores Sample.fencedRun ∪ presentedCores Sample.resignedRun) := by
    have distinct : ([Sample.genesis, Sample.rotation,
        Sample.following Sample.genesis .activation].map (Core.hash Sample.crypto)).Nodup := by
      decide +kernel
    apply collisionFreeOn_of_nodup distinct
    rintro _ (⟨presentation, member, rfl⟩ | ⟨presentation, member, rfl⟩)
    · revert presentation
      decide +kernel
    · revert presentation
      decide +kernel
  exact ⟨_, _, fenced, plain, by decide +kernel, by decide +kernel,
    hash_commits _ _ _ _ _ collisionFree fenced plain (by decide +kernel)⟩

end Werewolf.Governance
