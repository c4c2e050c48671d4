import Mathlib.Data.Set.Function
import Werewolf.Library.Bytes

/-! Governance statements and their canonical core bytes. A statement is one
governance action with the signatures of the governance keys; the core bytes
are what is signed and hashed, and the signatures are no part of them. -/

namespace Werewolf.Governance
open Library

abbrev Key := ByteArr 32
abbrev Hash := ByteArr 32
abbrev Signature := ByteArr 64

/-- What the module takes from the `blake3` and `ed25519_dalek` crates.
`fromBytes` says that `VerifyingKey::from_bytes` accepts the bytes. -/
structure Crypto where
  blake3 : List UInt8 → Hash
  fromBytes : Key → Bool
  isWeak : Key → Bool
  verifyStrict : Key → List UInt8 → Signature → Bool

def version : UInt8 := 1
def keyCount : Nat := 10
def thresholdCount : Nat := 7
def maxRevokedPerStatement : Nat := 64
def maxRoster : Nat := 1024
def maxAdmittedPerStatement : Nat := 64

def signDomain : List UInt8 := "werewolfproxy/governance/v1/sign\x00".toUTF8.data.toList
def hashDomain : List UInt8 := "werewolfproxy/governance/v1/hash\x00".toUTF8.data.toList

inductive Body where
  | genesis (threshold : UInt8) (keys : List Key)
  | rotation (entries : List (UInt8 × Key))
  | revocation (keys : List Key)
  | admission (keys : List Key)
  | activation
  | death
  deriving DecidableEq

structure Core where
  networkId : ByteArr 32
  sequence : UInt64
  previous : Hash
  body : Body
  deriving DecidableEq

structure Statement where
  core : Core
  signatures : List (UInt8 × Signature)
  deriving DecidableEq

def Body.kind : Body → UInt8
  | .genesis .. => 0
  | .rotation _ => 1
  | .revocation _ => 2
  | .admission _ => 3
  | .activation => 4
  | .death => 5

/-- A list of keys behind a two-byte count, the shape of revocations and admissions. -/
def encodeKeyList (keys : List Key) : List UInt8 :=
  beBytes 2 keys.length ++ keys.flatMap (·.val)

def Body.encode : Body → List UInt8
  | .genesis threshold keys =>
      threshold :: UInt8.ofNat keys.length :: keys.flatMap (·.val)
  | .rotation entries =>
      UInt8.ofNat entries.length :: entries.flatMap (fun entry => entry.1 :: entry.2.val)
  | .revocation keys => encodeKeyList keys
  | .admission keys => encodeKeyList keys
  | .activation => []
  | .death => []

def Core.encode (core : Core) : List UInt8 :=
  let body := core.body.encode
  [version] ++ core.networkId.val ++ beBytes 8 core.sequence.toNat ++ core.previous.val ++
    [core.body.kind] ++ beBytes 2 body.length ++ body

def Core.signingInput (core : Core) : List UInt8 :=
  signDomain ++ core.encode

def Statement.encode (statement : Statement) : List UInt8 :=
  statement.core.encode ++ [UInt8.ofNat statement.signatures.length] ++
    statement.signatures.flatMap (fun entry => entry.1 :: entry.2.val)

def Core.hash (crypto : Crypto) (core : Core) : Hash :=
  crypto.blake3 (hashDomain ++ core.encode)

private theorem flatMap_injective {α : Type} {width : Nat} {encode : α → List UInt8}
    (size : ∀ value, (encode value).length = width) (positive : 0 < width)
    (injective : ∀ left right, encode left = encode right → left = right) :
    ∀ left right : List α, left.flatMap encode = right.flatMap encode → left = right := by
  intro left
  induction left with
  | nil =>
    intro right same
    cases right with
    | nil => rfl
    | cons value rest =>
      have lengths := congrArg List.length same
      simp only [List.flatMap_nil, List.flatMap_cons, List.length_append, List.length_nil, size] at lengths
      omega
  | cons value rest ih =>
    intro right same
    cases right with
    | nil =>
      have lengths := congrArg List.length same
      simp only [List.flatMap_nil, List.flatMap_cons, List.length_append, List.length_nil, size] at lengths
      omega
    | cons other others =>
      simp only [List.flatMap_cons] at same
      obtain ⟨first, remaining⟩ := List.append_inj same (by rw [size, size])
      rw [injective _ _ first, ih _ remaining]

private theorem keys_injective {left right : List Key}
    (same : left.flatMap (·.val) = right.flatMap (·.val)) : left = right :=
  flatMap_injective (fun key => key.property) (by decide) (fun _ _ => Subtype.ext) _ _ same

private theorem entries_injective {left right : List (UInt8 × Key)}
    (same : left.flatMap (fun entry => entry.1 :: entry.2.val) =
      right.flatMap (fun entry => entry.1 :: entry.2.val)) : left = right := by
  have size : ∀ entry : UInt8 × Key, (entry.1 :: entry.2.val).length = 33 := by
    intro entry
    rw [List.length_cons, entry.2.property]
  refine flatMap_injective size (by decide) ?_ _ _ same
  · rintro ⟨leftIndex, leftKey⟩ ⟨rightIndex, rightKey⟩ equal
    obtain ⟨index, key⟩ := List.cons.inj equal
    exact Prod.ext index (Subtype.ext key)

private theorem encodeKeyList_injective {left right : List Key}
    (same : encodeKeyList left = encodeKeyList right) : left = right :=
  keys_injective (List.append_inj same (by simp)).2

/-- Bodies of one kind with the same bytes are the same body. The counts play
no part: every element has the same width, so the bytes alone fix the list. -/
theorem Body.encode_injective {left right : Body} (kinds : left.kind = right.kind)
    (same : left.encode = right.encode) : left = right := by
  cases left <;> cases right <;> simp only [Body.kind] at kinds <;>
    first
    | exact absurd kinds (by decide)
    | skip
  · obtain ⟨threshold, rest⟩ := List.cons.inj same
    rw [threshold, keys_injective (List.cons.inj rest).2]
  · rw [entries_injective (List.cons.inj same).2]
  · rw [encodeKeyList_injective same]
  · rw [encodeKeyList_injective same]
  · rfl
  · rfl

/-- The core bytes determine the core: the fields before the body have fixed
widths, and the kind byte selects the body's shape. -/
theorem Core.encode_injective {left right : Core} (same : left.encode = right.encode) :
    left = right := by
  simp only [Core.encode, List.append_assoc] at same
  obtain ⟨_, same⟩ := List.append_inj same rfl
  obtain ⟨network, same⟩ := List.append_inj same (by rw [left.networkId.property, right.networkId.property])
  obtain ⟨sequence, same⟩ := List.append_inj same (by simp)
  obtain ⟨previous, same⟩ := List.append_inj same (by rw [left.previous.property, right.previous.property])
  obtain ⟨kind, same⟩ := List.append_inj same rfl
  obtain ⟨_, body⟩ := List.append_inj same (by simp)
  cases left
  cases right
  congr
  · exact Subtype.ext network
  · exact UInt64.toNat.inj (beBytes_injective (UInt64.toNat_lt _) (UInt64.toNat_lt _) sequence)
  · exact Subtype.ext previous
  · exact Body.encode_injective (List.cons.inj kind).1 body

/-- `blake3` has no collision among the hash inputs of `cores`. -/
def CollisionFreeOn (crypto : Crypto) (cores : Set Core) : Prop :=
  Set.InjOn crypto.blake3 ((fun core => hashDomain ++ core.encode) '' cores)

theorem CollisionFreeOn.eq_of_hash {crypto : Crypto} {cores : Set Core}
    (collisionFree : CollisionFreeOn crypto cores) {left right : Core} (leftMember : left ∈ cores)
    (rightMember : right ∈ cores) (same : left.hash crypto = right.hash crypto) : left = right := by
  have inputs := collisionFree (Set.mem_image_of_mem _ leftMember) (Set.mem_image_of_mem _ rightMember) same
  exact Core.encode_injective (List.append_cancel_left inputs)

end Werewolf.Governance
