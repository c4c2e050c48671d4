import Mathlib.Data.List.FinRange
import Werewolf.Discovery.Cache

/-! The routing table of the overlay, and the peer store it is saved in. A peer is its
node id with whatever else is known of it: its name, address and health. -/

namespace Werewolf.Discovery.Routing
open Library

/-- `u8::leading_zeros`. -/
def leadingZeros (byte : UInt8) : Nat := if byte = 0 then 8 else 7 - byte.toNat.log2

/-- The loop of `bucket_index` over the bytes of the distance, from a position on. -/
def bucketIndexFrom (position : Nat) : List UInt8 → Nat
  | [] => 255
  | byte :: rest =>
      if byte ≠ 0 then position * 8 + leadingZeros byte else bucketIndexFrom (position + 1) rest

theorem leadingZeros_lt {byte : UInt8} (nonzero : byte ≠ 0) : leadingZeros byte < 8 := by
  rw [leadingZeros, if_neg nonzero]
  omega

theorem bucketIndexFrom_lt {position : Nat} {bytes : List UInt8}
    (fits : position + bytes.length ≤ 32) : bucketIndexFrom position bytes < 256 := by
  induction bytes generalizing position with
  | nil => simp [bucketIndexFrom]
  | cons byte rest ih =>
    rw [List.length_cons] at fits
    rw [bucketIndexFrom]
    split
    · next nonzero =>
        have := leadingZeros_lt nonzero
        omega
    · exact ih (by omega)

def bucketIndex (id other : NodeId) : Fin 256 :=
  ⟨bucketIndexFrom 0 (id.xorDistance other).val, bucketIndexFrom_lt (by rw [(id.xorDistance other).2])⟩

structure Peer (δ : Type) where
  id : NodeId
  details : δ

def bucketSize : Nat := 20

/-- The peers of a bucket, from the least to the most recently seen. -/
abbrev KBucket (δ : Type) := List (Peer δ)

inductive InsertOutcome (δ : Type) where
  | inserted
  | refreshed
  | full (oldest : Peer δ)
  | localNode

variable {δ : Type}

namespace KBucket

def contains (bucket : KBucket δ) (id : NodeId) : Bool := bucket.any (fun known => known.id = id)

def erase (bucket : KBucket δ) (id : NodeId) : KBucket δ :=
  bucket.eraseP (fun known => known.id = id)

def insert (bucket : KBucket δ) (peer : Peer δ) : KBucket δ × InsertOutcome δ :=
  if bucket.contains peer.id then (bucket.erase peer.id ++ [peer], .refreshed)
  else if full : bucketSize ≤ bucket.length then
    (bucket, .full (bucket.head (List.length_pos_iff.mp (Nat.lt_of_lt_of_le (by decide) full))))
  else (bucket ++ [peer], .inserted)

def remove (bucket : KBucket δ) (id : NodeId) : KBucket δ × Option (Peer δ) :=
  (bucket.erase id, bucket.find? (fun known => known.id = id))

end KBucket

structure RoutingTable (δ : Type) where
  localId : NodeId
  buckets : Fin 256 → KBucket δ

namespace RoutingTable

def new (localId : NodeId) : RoutingTable δ := ⟨localId, fun _ => []⟩

variable (table : RoutingTable δ)

def withBucket (index : Fin 256) (bucket : KBucket δ) : RoutingTable δ :=
  ⟨table.localId, Function.update table.buckets index bucket⟩

def addPeer (peer : Peer δ) : RoutingTable δ × InsertOutcome δ :=
  if peer.id = table.localId then (table, .localNode)
  else
    let index := bucketIndex table.localId peer.id
    let inserted := (table.buckets index).insert peer
    (table.withBucket index inserted.1, inserted.2)

def removePeer (id : NodeId) : RoutingTable δ × Option (Peer δ) :=
  if id = table.localId then (table, none)
  else
    let index := bucketIndex table.localId id
    let removed := (table.buckets index).remove id
    (table.withBucket index removed.1, removed.2)

def allPeers : List (Peer δ) := (List.finRange 256).flatMap table.buckets

def nearest (target : NodeId) (limit : Nat) : List (Peer δ) :=
  (sortOn (fun peer => target.xorDistance peer.id) table.allPeers).take limit

end RoutingTable

inductive TableCall (δ : Type) where
  | addPeer (peer : Peer δ)
  | removePeer (id : NodeId)

def RoutingTable.after (table : RoutingTable δ) : TableCall δ → RoutingTable δ
  | .addPeer peer => (table.addPeer peer).1
  | .removePeer id => (table.removePeer id).1

structure PeerStore (δ : Type) where
  localId : NodeId
  peers : List (Peer δ)

namespace PeerStore

def fromRoutingTable (table : RoutingTable δ) : PeerStore δ := ⟨table.localId, table.allPeers⟩

def intoRoutingTable (store : PeerStore δ) : RoutingTable δ :=
  store.peers.foldl (fun table peer => (table.addPeer peer).1) (.new store.localId)

end PeerStore

end Werewolf.Discovery.Routing
