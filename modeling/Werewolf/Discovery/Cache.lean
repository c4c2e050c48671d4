import Mathlib.Data.Prod.Lex
import Werewolf.Discovery.Contacts
import Werewolf.Library.Highest

/-! The cache of contact records: what a node learns, what it answers from it, and
what a requester takes from the answer. -/

namespace Werewolf.Discovery
open Library Governance State Policy Transport
open Authority (require)

def cacheLimit : Nat := 256

def nodeIdDomain : List UInt8 := "werewolf/node-id/v1".toUTF8.data.toList ++ [0]

abbrev NodeId := ByteArr 32

namespace NodeId

def fromPublicKey (sha256 : List UInt8 → NodeId) (publicKey : Key) : NodeId :=
  sha256 (nodeIdDomain ++ publicKey.val)

def xorDistance (id other : NodeId) : NodeId :=
  ⟨List.zipWith (· ^^^ ·) id.val other.val, by simp [id.2, other.2]⟩

end NodeId

namespace Contacts

variable (contacting : Contacting)

def evictionKey (pack : List Key) (record : ContactRecord) : Bool ×ₗ Natᵒᵈ :=
  toLex (!pack.contains record.publicKey, OrderDual.toDual record.expiresAt.toNat)

def merge (ownKey : Key) (now : UInt64) (merged : List ContactRecord) (record : ContactRecord) : List ContactRecord :=
  if record.publicKey = ownKey || !record.verify contacting now then merged
  else place (·.publicKey) ContactRecord.supersedes merged record

def learn (contacts : Contacts) (records : List ContactRecord) (ownKey : Key) (pack : List Key)
    (now : UInt64) : List ContactRecord :=
  let merged := (contacts.known ++ records).foldl (merge contacting ownKey now) []
  (sortOn (evictionKey pack) merged).take cacheLimit

/-- A `services` or `governance` request is not answered from contact records. -/
def answer (sha256 : List UInt8 → NodeId) (contacts : Contacts) (request : RpcRequest)
    (requester : Key) (pack : List Key) (now : UInt64) : List ContactRecord :=
  match request with
  | .ping => contacts.own.toList.filter (fun record => record.verify contacting now)
  | .findNode target k =>
      let candidates := contacts.known.filter (fun record =>
        record.publicKey ≠ requester && pack.contains record.publicKey)
      ((sortOn (fun record => NodeId.xorDistance target (.fromPublicKey sha256 record.publicKey))
        candidates).filter (fun record => record.verify contacting now)).take k.toNat
  | .services | .governance _ _ => []

end Contacts

section Fitting

variable {α : Type} (build : List ContactRecord → Option α) (size : α → Nat)
  (records : List ContactRecord)

def fitFirst : Nat → Option α
  | 0 => do
      let result ← build (records.take 0)
      require (size result + 1 ≤ resultLimit)
      return result
  | count + 1 => do
      let result ← build (records.take (count + 1))
      if size result + 1 ≤ resultLimit then return result else fitFirst count

def fit : Option α := fitFirst build size records records.length

end Fitting

section Results

variable (contacting : Contacting) (suite : Suite)

end Results

end Werewolf.Discovery
