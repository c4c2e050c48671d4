import Werewolf.Discovery.Contacts

/-! The records that a process signs of itself, in the order of their signing. A
peer that holds one replaces it by a later one exactly if no record is signed
without an earlier one at hand before the clock has passed them all. -/

namespace Werewolf.Discovery
open Library Governance State Policy Transport

namespace Announcer

variable (contacting : Contacting)

def lastSeq : UInt64 := 0xFFFFFFFFFFFFFFFF

def Ahead (announcer : Announcer) (now : UInt64) : Prop :=
  (announcer.refresh contacting now).signed ≠ announcer.signed →
    match announcer.contacts.own with
    | none => ∀ record ∈ announcer.signed, record.seq < now
    | some record => record.seq ≠ lastSeq

def Orderly (announcer : Announcer) : AnnouncerEvent → Prop
  | .init _ => True
  | .advertise addresses saved now => ∀ candidate, accepted contacting addresses saved =
      some candidate → (announcer.advertise candidate).Ahead contacting now
  | .refresh now => announcer.Ahead contacting now

structure Tied (announcer : Announcer) : Prop where
  last : ∀ record, announcer.contacts.own = some record → announcer.signed.head? = some record
  keys : ∀ record ∈ announcer.signed, ∃ identity, announcer.pelt = some identity ∧
    (contacting.base64Decode identity.publicKeyB64).bind (sized 32) = some record.publicKey

section Steps

variable {contacting} {announcer : Announcer} {now : UInt64}

theorem tied_initial (pelt : Option PeltIdentity) (advertised : List String)
    (known : List ContactRecord) : (initial pelt advertised known).Tied contacting :=
  ⟨fun _ held => (nomatch held), fun _ member => (nomatch member)⟩

theorem sign_some {identity : PeltIdentity} {addresses : List String}
    {seq expiresAt : UInt64} {record : ContactRecord}
    (signed : ContactRecord.sign contacting identity addresses seq expiresAt now = some record) :
    record.seq = seq ∧ (contacting.base64Decode identity.publicKeyB64).bind (sized 32) = some record.publicKey := by
  simp only [ContactRecord.sign, bind_eq_some, return_eq_some] at signed
  obtain ⟨bytes, decoded, key, sizes, _, _, _, _, _, _, _, _, rfl⟩ := signed
  exact ⟨rfl, by rw [decoded]; exact sizes⟩

theorem refresh_cases (announcer : Announcer) (now : UInt64) : (∃ own, (own = none ∨ own = announcer.contacts.own) ∧
      announcer.refresh contacting now = { announcer with contacts := { announcer.contacts with own := own } }) ∨
    ∃ identity record, announcer.pelt = some identity ∧ record.seq = announcer.contacts.nextSeq now ∧
      (contacting.base64Decode identity.publicKeyB64).bind (sized 32) = some record.publicKey ∧
      announcer.refresh contacting now = { announcer with
          contacts := { announcer.contacts with own := some record }
          signed := record :: announcer.signed } := by
  cases owner : announcer.pelt with
  | none =>
    have same : announcer.refresh contacting now = announcer := by simp only [refresh, owner]
    refine .inl ⟨announcer.contacts.own, .inr rfl, ?_⟩
    rw [same, ← owner]
  | some identity =>
    simp only [refresh, owner, due, Contacts.refreshOwn]
    by_cases withdrawn : announcer.contacts.advertised = []
    · exact .inl ⟨none, .inl rfl, by simp [withdrawn]⟩
    · by_cases current : announcer.contacts.isCurrent contacting now = true
      · exact .inl ⟨announcer.contacts.own, .inr rfl, by simp [withdrawn, current]⟩
      · cases result : ContactRecord.sign contacting identity announcer.contacts.advertised
            (announcer.contacts.nextSeq now) (now + maxLifetimeSecs) now with
        | none => exact .inl ⟨none, .inl rfl, by simp [withdrawn, current]⟩
        | some record =>
          obtain ⟨seq, key⟩ := sign_some result
          exact .inr ⟨identity, record, rfl, seq, key, by simp [withdrawn, current]⟩

theorem Tied.refresh (tied : announcer.Tied contacting) (now : UInt64) :
    (announcer.refresh contacting now).Tied contacting := by
  rcases @refresh_cases contacting announcer now with
    ⟨own, held, unsigned⟩ | ⟨identity, record, owner, _, key, fresh⟩
  · rw [unsigned]
    refine ⟨fun record kept => ?_, tied.keys⟩
    rcases held with rfl | rfl
    · cases kept
    · exact tied.last record kept
  · rw [fresh]
    refine ⟨fun other kept => kept, fun other member => ?_⟩
    rcases List.mem_cons.mp member with rfl | before
    · exact ⟨identity, owner, key⟩
    · exact tied.keys other before

theorem lt_nextSeq_iff (seq now : UInt64) : seq < max now (Contacts.saturatingSucc seq) ↔ seq ≠ lastSeq := by
  have shape (next : UInt64) : max now next = if now ≤ next then next else now := rfl
  have bound := UInt64.toNat_lt now
  constructor
  · rintro later rfl
    have full : Contacts.saturatingSucc lastSeq = lastSeq := rfl
    have reached : now ≤ lastSeq := UInt64.le_iff_toNat_le.mpr (Nat.le_of_lt_succ bound)
    rw [full, shape, if_pos reached, UInt64.lt_iff_toNat_lt] at later
    exact Nat.lt_irrefl _ later
  · intro room
    have grows : (Contacts.saturatingSucc seq).toNat = seq.toNat + 1 := by
      have bound := UInt64.toNat_lt seq
      have different : seq.toNat ≠ 0xFFFFFFFFFFFFFFFF := fun same => room (UInt64.toNat.inj same)
      rw [Contacts.saturatingSucc, if_neg (show seq ≠ 0xFFFFFFFFFFFFFFFF from room),
        UInt64.toNat_add, UInt64.toNat_one]
      omega
    rw [shape, UInt64.lt_iff_toNat_lt]
    split
    · omega
    · rename_i passed
      rw [UInt64.le_iff_toNat_le] at passed
      omega

theorem Ahead.iff (tied : announcer.Tied contacting) (now : UInt64) :
    (announcer.refresh contacting now).signed.Pairwise (fun newer older => newer.supersedes older = true) ↔
      announcer.signed.Pairwise (fun newer older => newer.supersedes older = true) ∧
        announcer.Ahead contacting now := by
  unfold Ahead
  rcases @refresh_cases contacting announcer now with
    ⟨own, _, unsigned⟩ | ⟨identity, record, owner, seq, key, fresh⟩
  · simp [unsigned]
  · have different : record :: announcer.signed ≠ announcer.signed :=
      List.cons_ne_self _ _
    have after (older : ContactRecord) (member : older ∈ announcer.signed) :
        record.supersedes older = true ↔ older.seq < record.seq := by
      obtain ⟨same, owned, known⟩ := tied.keys older member
      cases owner.symm.trans owned
      rw [ContactRecord.supersedes, Option.some.inj (key.symm.trans known)]
      simp
    simp only [fresh, ne_eq, different, not_false_eq_true, true_implies, List.pairwise_cons]
    rw [and_comm]
    refine and_congr_right (fun ordered => ?_)
    rw [forall₂_congr after, seq, Contacts.nextSeq]
    cases held : announcer.contacts.own with
    | none => rfl
    | some last =>
      obtain ⟨rest, shape⟩ := List.head?_eq_some_iff.mp (tied.last last held)
      rw [shape, List.pairwise_cons] at ordered
      rw [shape, List.forall_mem_cons]
      refine Iff.trans ?_ (lt_nextSeq_iff last.seq now)
      refine and_iff_left_of_imp (fun later older member => ?_)
      have before := ordered.1 older member
      simp only [ContactRecord.supersedes, Bool.and_eq_true, decide_eq_true_eq] at before
      rw [UInt64.lt_iff_toNat_lt] at later ⊢
      exact (UInt64.lt_iff_toNat_lt.mp before.2).trans later

theorem step_tied (tied : announcer.Tied contacting) (event : AnnouncerEvent) :
    (announcer.step contacting event).Tied contacting := by
  cases event with
  | init identity =>
    refine ⟨tied.last, fun record member => ?_⟩
    obtain ⟨owner, owned, key⟩ := tied.keys record member
    exact ⟨owner, by simp only [step, owned, Option.some_or], key⟩
  | advertise addresses saved now =>
    simp only [step]
    split
    · rename_i candidate _
      exact (show (announcer.advertise candidate).Tied contacting from
        ⟨tied.last, tied.keys⟩).refresh now
    · exact tied
  | refresh now => exact tied.refresh now

theorem step_ordered_iff (tied : announcer.Tied contacting) (event : AnnouncerEvent) :
    (announcer.step contacting event).signed.Pairwise (fun newer older => newer.supersedes older = true) ↔
      announcer.signed.Pairwise (fun newer older => newer.supersedes older = true) ∧
        announcer.Orderly contacting event := by
  cases event with
  | init identity => exact (and_iff_left trivial).symm
  | advertise addresses saved now =>
    simp only [step, Orderly]
    cases accepted contacting addresses saved with
    | none => simp
    | some candidate =>
      simp only [Option.some.injEq, forall_eq']
      exact Ahead.iff (show (announcer.advertise candidate).Tied contacting from
        ⟨tied.last, tied.keys⟩) now
  | refresh now => exact Ahead.iff tied now

end Steps

/-- Of the records of a process each replaces all that were signed before it,
exactly if every one of them is signed over the last one or at a time that no
`seq` before has reached. -/
theorem own_records_supersede_iff (pelt : Option PeltIdentity) (advertised : List String)
    (known : List ContactRecord) (events : List AnnouncerEvent) :
    (run (step contacting) (initial pelt advertised known) events).signed.Pairwise
        (fun newer older => newer.supersedes older = true) ↔
      ∀ before event after, events = before ++ event :: after →
        (run (step contacting) (initial pelt advertised known) before).Orderly contacting event := by
  have exact := run_iff_steps (Tied contacting)
    (fun announcer => announcer.signed.Pairwise (fun newer older => newer.supersedes older = true))
    (Orderly contacting) (fun _ event tied => step_tied tied event)
    (fun _ event tied => step_ordered_iff tied event)
    (tied_initial pelt advertised known) events
  rw [exact]
  exact and_iff_right List.Pairwise.nil

end Announcer

namespace Sample

def address : SocketAddr := .v4 ⟨[203, 0, 113, 7], rfl⟩ 9560

def contacting : Contacting where
  blake3 _ := .zero 32
  fromBytes _ := true
  isWeak _ := false
  verifyStrict key _ signature := signature.val.take 32 = key.val
  base64Decode := Base64.decode
  base64Encode := Base64.encode
  isSocketAddr text := text = "203.0.113.7:9560"
  sign key _ := ⟨key.val ++ List.replicate 32 2, by simp [key.2]⟩
  ipText _ := ""
  parseIp _ := none
  parseSocketAddr text :=
    if text = "203.0.113.7:9560" then some address else none

def announcerPelt : PeltIdentity :=
  let key := Base64.encode (List.replicate 32 1)
  ⟨key, key, ""⟩

def readvertised : Announcer :=
  run (Announcer.step contacting) (.initial (some announcerPelt) [] [])
    [.advertise "quic://203.0.113.7:9560" true 1800000000, .advertise "" true 1800000000,
      .advertise "quic://203.0.113.7:9560" true 1800000000]

end Sample

/-- Both records have the second as their `seq`, and neither replaces the other. -/
theorem readvertised_record_is_not_newer : Sample.readvertised.signed.map (·.seq) = [1800000000, 1800000000] ∧
      Sample.readvertised.signed.Pairwise (fun newer older => newer.supersedes older = false) ∧
      Sample.readvertised.signed.all (fun record =>
        record.verify Sample.contacting 1800000000) = true := by
  decide +kernel

end Werewolf.Discovery
