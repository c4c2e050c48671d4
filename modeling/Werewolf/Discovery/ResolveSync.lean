import Werewolf.Transport.Messages

/-! The network half of `governance sync`: the statements peers offer are
walked position by position against a simulated head. What a round collects is
the network's choice, so the collected offers are an argument. -/

namespace Werewolf.Discovery
open Governance

/-- The statements one peer returned, in order. -/
abbrev Offer := List Statement

def rounds : Nat := 16

/-- The offer repeats the last `position` statements chosen, by core hash. -/
def agrees (crypto : Crypto) (chosen : List Statement) (offer : Offer) (position : Nat) : Bool :=
  ((offer.take position).zip (chosen.drop (chosen.length - position))).all
    (fun pair => pair.1.core.hash crypto = pair.2.core.hash crypto)

/-- The statements at `position` of the agreeing offers, one for each core hash. -/
def candidates (crypto : Crypto) (offers : List Offer) (chosen : List Statement) (position : Nat) : List Statement :=
  offers.foldl (fun kept offer =>
      match offer[position]? with
      | some statement =>
          if agrees crypto chosen offer position &&
              !kept.any (fun other => other.core.hash crypto = statement.core.hash crypto) then
            kept ++ [statement]
          else kept
      | none => kept)
    []

def successor (crypto : Crypto) (simulated : Head) (statement : Statement) : Option Head :=
  match apply crypto (some simulated) statement none with
  | .ok (.applied next) => some next
  | _ => none

def valid (crypto : Crypto) (simulated : Head) (statements : List Statement) : List (Statement × Head) :=
  statements.filterMap (fun statement => (successor crypto simulated statement).map (statement, ·))

structure Resolution where
  simulated : Head
  chosen : List Statement
  conflict : Option (Statement × Statement)

/-- The inner loop of a round. The fuel only bounds the recursion. -/
def walk (crypto : Crypto) (offers : List Offer) : (fuel position : Nat) → Head → List Statement → Resolution
  | 0, _, simulated, chosen => ⟨simulated, chosen, none⟩
  | fuel + 1, position, simulated, chosen =>
      match valid crypto simulated (candidates crypto offers chosen position) with
      | [] => ⟨simulated, chosen, none⟩
      | [(statement, next)] => walk crypto offers fuel (position + 1) next (chosen ++ [statement])
      | (first, _) :: (second, _) :: _ => ⟨simulated, chosen, some (first, second)⟩

/-- Past the end of the longest offer there are no candidates. -/
def resolveRound (crypto : Crypto) (offers : List Offer) (simulated : Head) (chosen : List Statement) : Resolution :=
  walk crypto offers ((offers.map List.length).foldr max 0 + 1) 0 simulated chosen

/-- A conflict ends the rounds, and so does a round that made no progress or in
which no offer was full. -/
def resolveRounds (crypto : Crypto) (collect : Nat → Head → List Offer) :
    (remaining : Nat) → Head → List Statement → Resolution
  | 0, simulated, chosen => ⟨simulated, chosen, none⟩
  | remaining + 1, simulated, chosen =>
      let offers := (collect remaining simulated).filter (fun offer => !offer.isEmpty)
      let fullOffer := offers.any (fun offer => offer.length = Transport.maxGovernanceK.toNat)
      let result := resolveRound crypto offers simulated chosen
      let progressed := decide (chosen.length < result.chosen.length)
      if result.conflict.isSome || !progressed || !fullOffer then result
      else resolveRounds crypto collect remaining result.simulated result.chosen

def resolveSync (crypto : Crypto) (collect : Nat → Head → List Offer) (head : Head) : Resolution :=
  resolveRounds crypto collect rounds head []

theorem successor_eq_some_iff {crypto : Crypto} {simulated next : Head} {statement : Statement} :
    successor crypto simulated statement = some next ↔
      apply crypto (some simulated) statement none = .ok (.applied next) := by
  unfold successor
  split
  · rename_i accepted
    simp [accepted]
  · rename_i refused
    simp only [reduceCtorEq, false_iff]
    exact refused next

def applyAll (crypto : Crypto) (head : Head) (statements : List Statement) : Option Head :=
  statements.foldlM (successor crypto) head

end Werewolf.Discovery
