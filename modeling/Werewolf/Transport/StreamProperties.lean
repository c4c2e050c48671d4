import Mathlib.Data.List.Nodup
import Werewolf.Transport.Stream

/-! Against whoever holds the bytes between the two sides, a direction delivers
a prefix of what was written in it, as long as its counter does not wrap. -/

namespace Werewolf.Transport
open Library

variable {direction : UInt8} {counter : UInt64} {plaintext : List UInt8}

/-- What is sealed opens again, and is longer by the tag. -/
structure Aead.Lawful (aead : Aead) : Prop where
  opens : ∀ {key nonce plaintext ciphertext},
    aead.encrypt key nonce plaintext = some ciphertext →
      aead.decrypt key nonce ciphertext = some plaintext
  tagged : ∀ {key nonce plaintext ciphertext},
    aead.encrypt key nonce plaintext = some ciphertext → ciphertext.length = plaintext.length + 16

/-- No piece of the bytes opens unless it was sealed under the same key and
nonce. -/
def Authentic (aead : Aead) (key : SessionKey) (log : List Sealed) (bytes : List UInt8) : Prop :=
  ∀ nonce ciphertext plaintext, ciphertext <:+: bytes → aead.decrypt key nonce ciphertext = some plaintext →
      ∃ frame ∈ log, frame.key = key ∧ frame.nonce = nonce ∧ frame.ciphertext = ciphertext

theorem Authentic.of_infix {aead : Aead} {key : SessionKey} {log : List Sealed}
    {bytes piece : List UInt8} (authentic : Authentic aead key log bytes)
    (within : piece <:+: bytes) : Authentic aead key log piece :=
  fun nonce ciphertext plaintext inside opened =>
    authentic nonce ciphertext plaintext (inside.trans within) opened

theorem makeNonce_injective {other : UInt8} {next : UInt64}
    (same : makeNonce direction counter = makeNonce other next) :
    direction = other ∧ counter = next := by
  have bytes := congrArg Subtype.val same
  simp only [makeNonce, List.cons.injEq, true_and] at bytes
  refine ⟨bytes.1, UInt64.toNat_inj.mp ?_⟩
  exact beBytes_injective counter.toNat_lt next.toNat_lt bytes.2

theorem counter_injective {left right : Nat} (leftFits : left < 2 ^ 64) (rightFits : right < 2 ^ 64)
    (same : UInt64.ofNat left = UInt64.ofNat right) : left = right := by
  have values := congrArg UInt64.toNat same
  rwa [UInt64.toNat_ofNat_of_lt' leftFits, UInt64.toNat_ofNat_of_lt' rightFits] at values

theorem frameSize_bounds {length : Nat} (fits : length ≤ maxFrameSize - 2) (random : UInt32) :
    length + 2 ≤ frameSize length random ∧ frameSize length random ≤ maxFrameSize := by
  have room : max (length + 2) minFrameSize ≤ maxFrameSize := by
    simp only [maxFrameSize, minFrameSize] at fits ⊢
    omega
  have needed : length + 2 ≤ max (length + 2) minFrameSize := Nat.le_max_left _ _
  simp only [frameSize]
  generalize max (length + 2) minFrameSize = minBucket at room needed
  refine ⟨by omega, ?_⟩
  have drawn : (if 1 < (maxFrameSize - minBucket) / frameStep + 1 then
      random.toNat % ((maxFrameSize - minBucket) / frameStep + 1) else 0) ≤
        (maxFrameSize - minBucket) / frameStep := by
    split
    · exact Nat.le_of_lt_succ (Nat.mod_lt _ (Nat.succ_pos _))
    · exact Nat.zero_le _
  have scaled := Nat.mul_le_mul_right frameStep drawn
  have whole := Nat.div_mul_le_self (maxFrameSize - minBucket) frameStep
  omega

theorem length_paddedPlaintext (fits : plaintext.length ≤ maxFrameSize - 2) (random : UInt32) :
    (paddedPlaintext plaintext random).length = frameSize plaintext.length random := by
  have needed := (frameSize_bounds fits random).1
  simp only [paddedPlaintext, List.rightpad, List.length_append, length_beBytes,
    List.length_replicate]
  omega

theorem unpad_paddedPlaintext (fits : plaintext.length ≤ maxFrameSize - 2) (random : UInt32) :
    unpad (paddedPlaintext plaintext random) = .ok plaintext := by
  have needed := (frameSize_bounds fits random).1
  have sized := length_paddedPlaintext fits random
  have small : plaintext.length % 256 ^ 2 = plaintext.length := by
    refine Nat.mod_eq_of_lt ?_
    simp only [maxFrameSize] at fits
    omega
  have front : (paddedPlaintext plaintext random).take 2 = beBytes 2 plaintext.length := by
    simp only [paddedPlaintext, List.rightpad, List.append_assoc]
    exact List.take_left' (length_beBytes _ _)
  have back : (paddedPlaintext plaintext random).drop 2 =
      plaintext ++ List.replicate (frameSize plaintext.length random -
        (beBytes 2 plaintext.length ++ plaintext).length) 0 := by
    simp only [paddedPlaintext, List.rightpad, List.append_assoc]
    exact List.drop_left' (length_beBytes _ _)
  simp only [unpad, front, back, beValue_beBytes, small]
  rw [if_neg (by omega), if_neg (by omega), List.take_left]

/-- What one frame of a direction is: sealed at the counter of its place, around
the plaintext written there. -/
structure FrameAt (aead : Aead) (key : SessionKey) (direction : UInt8) (counter : UInt64)
    (plaintext : List UInt8) (frame : Sealed) : Prop where
  keyed : frame.key = key
  nonce : frame.nonce = makeNonce direction counter
  content : unpad frame.plaintext = .ok plaintext
  encrypted : aead.encrypt key (makeNonce direction counter) frame.plaintext =
    some frame.ciphertext
  bounded : frame.plaintext.length ≤ maxFrameSize

theorem FrameAt.ciphertext_le {aead : Aead} (lawful : aead.Lawful) {key : SessionKey}
    {frame : Sealed} (placed : FrameAt aead key direction counter plaintext frame) :
    frame.ciphertext.length ≤ maxCiphertext := by
  have tagged := lawful.tagged placed.encrypted
  have bounded := placed.bounded
  simp only [maxFrameSize, maxCiphertext] at bounded ⊢
  omega

theorem writeEncryptedFrame_ok {aead : Aead} {key : SessionKey} {next : UInt64} {random : UInt32}
    {frame : Sealed}
    (wrote : writeEncryptedFrame aead key direction counter plaintext random = .ok (frame, next)) :
    FrameAt aead key direction counter plaintext frame ∧ next = counter + 1 := by
  simp only [writeEncryptedFrame] at wrote
  split at wrote
  · cases wrote
  · rename_i fits
    have fits := Nat.le_of_not_lt fits
    cases encrypted : aead.encrypt key (makeNonce direction counter)
        (paddedPlaintext plaintext random) with
    | none =>
      rw [encrypted] at wrote
      cases wrote
    | some ciphertext =>
      rw [encrypted] at wrote
      cases wrote
      refine ⟨⟨rfl, rfl, unpad_paddedPlaintext fits random, encrypted, ?_⟩, rfl⟩
      rw [length_paddedPlaintext fits random]
      exact (frameSize_bounds fits random).2

section Direction

variable {aead : Aead} {key : SessionKey} {direction : UInt8} {counter : UInt64}

structure Numbered (aead : Aead) (key : SessionKey) (direction : UInt8) (counter : UInt64)
    (written : List (List UInt8)) (frames : List Sealed) : Prop where
  lengths : frames.length = written.length
  placed : ∀ index frame, frames[index]? = some frame →
    ∃ plaintext, written[index]? = some plaintext ∧
      FrameAt aead key direction (counter + UInt64.ofNat index) plaintext frame

theorem copyOut_numbered (aead : Aead) (key : SessionKey) (direction : UInt8) (counter : UInt64)
    (plaintexts : List (List UInt8 × UInt32)) :
    Numbered aead key direction counter (copyOut aead key direction counter plaintexts).written
      (copyOut aead key direction counter plaintexts).frames := by
  induction plaintexts generalizing counter with
  | nil => exact ⟨rfl, fun index frame found => by simp [copyOut] at found⟩
  | cons first rest ih =>
    obtain ⟨plaintext, random⟩ := first
    simp only [copyOut]
    split
    · exact ⟨rfl, fun index frame found => by simp at found⟩
    · rename_i frame next wrote
      obtain ⟨sealed, rfl⟩ := writeEncryptedFrame_ok wrote
      obtain ⟨lengths, frames⟩ := ih (counter + 1)
      refine ⟨by simp [lengths], ?_⟩
      intro index found shown
      cases index with
      | zero =>
        cases shown
        exact ⟨plaintext, rfl, by simpa using sealed⟩
      | succ index =>
        obtain ⟨later, written, placed⟩ := frames index found (by simpa using shown)
        have moved : counter + 1 + UInt64.ofNat index =
            counter + UInt64.ofNat (index + 1) := by
          rw [UInt64.ofNat_add, UInt64.add_assoc, UInt64.add_comm 1]
          rfl
        exact ⟨later, by simpa using written, moved ▸ placed⟩

theorem copyOut_written (aead : Aead) (key : SessionKey) (direction : UInt8) (counter : UInt64)
    (plaintexts : List (List UInt8 × UInt32)) :
    let outgoing := copyOut aead key direction counter plaintexts
    outgoing.written <+: plaintexts.map Prod.fst ∧
      (outgoing.error = none → outgoing.written = plaintexts.map Prod.fst) := by
  induction plaintexts generalizing counter with
  | nil => exact ⟨List.prefix_rfl, fun _ => rfl⟩
  | cons first rest ih =>
    simp only [copyOut]
    split
    · exact ⟨List.nil_prefix, fun absent => by cases absent⟩
    · rename_i frame next _
      obtain ⟨starts, whole⟩ := ih next
      refine ⟨by simpa using starts, fun absent => ?_⟩
      simp [whole absent]

theorem readCiphertext_frame {ciphertext : List UInt8} (fits : ciphertext.length ≤ maxCiphertext)
    (rest : List UInt8) :
    readCiphertext (beBytes 4 ciphertext.length ++ ciphertext ++ rest) = .ok (ciphertext, rest) := by
  have small : ciphertext.length % 256 ^ 4 = ciphertext.length := by
    refine Nat.mod_eq_of_lt ?_
    simp only [maxCiphertext] at fits
    omega
  simp only [readCiphertext, Reader.bind_ok_iff, Reader.lift_ok_iff, Reader.pure_ok_iff]
  refine ⟨ciphertext.length, ciphertext ++ rest, ?_, (), _, ⟨if_neg (Nat.not_lt.mpr fits), rfl⟩,
    ⟨ciphertext, rfl⟩, rest, ?_, rfl, rfl⟩
  · simp only [Reader.number, Reader.bind_ok_iff, Reader.pure_ok_iff]
    refine ⟨⟨beBytes 4 ciphertext.length, length_beBytes _ _⟩, _, ?_, ?_, rfl⟩
    · simp [Reader.take]
    · rw [beValue_beBytes, small]
  · simp [Reader.take]

theorem readFrameOrEnd_frame (lawful : aead.Lawful) {plaintext : List UInt8} {frame : Sealed}
    (placed : FrameAt aead key direction counter plaintext frame) (rest : List UInt8)
    (closed : Bool) :
    readFrameOrEnd aead key direction counter ⟨frame.frame ++ rest, closed⟩ =
      .ok (some (plaintext, counter + 1, ⟨rest, closed⟩)) := by
  have nonempty : frame.frame ++ rest ≠ [] := by
    intro empty
    have lengths := congrArg List.length empty
    simp [Sealed.frame] at lengths
  have read : readCiphertext (frame.frame ++ rest) = .ok (frame.ciphertext, rest) :=
    readCiphertext_frame (placed.ciphertext_le lawful) rest
  have opened : decryptFrame aead key direction counter frame.ciphertext = .ok plaintext := by
    simp only [decryptFrame, lawful.opens placed.encrypted, placed.content]
  simp only [readFrameOrEnd, nonempty, if_false]
  exact bind_eq_ok.mpr ⟨(frame.ciphertext, rest), read,
    bind_eq_ok.mpr ⟨plaintext, opened, rfl⟩⟩

theorem copyIn_copyOut (lawful : aead.Lawful) (key : SessionKey) (direction : UInt8)
    (counter : UInt64) (plaintexts : List (List UInt8 × UInt32)) :
    let outgoing := copyOut aead key direction counter plaintexts
    copyIn aead key direction counter ⟨outgoing.bytes, true⟩ = ⟨outgoing.written, none⟩ := by
  induction plaintexts generalizing counter with
  | nil => exact copyIn_end rfl
  | cons first rest ih =>
    obtain ⟨plaintext, random⟩ := first
    simp only [copyOut]
    split
    · exact copyIn_end rfl
    · rename_i frame next wrote
      obtain ⟨placed, rfl⟩ := writeEncryptedFrame_ok wrote
      have read := readFrameOrEnd_frame lawful placed
        (copyOut aead key direction (counter + 1) rest).bytes true
      rw [Outgoing.bytes, List.flatMap_cons, ← Outgoing.bytes, copyIn_frame read, ih]

theorem Numbered.of_mem {written : List (List UInt8)} {frames : List Sealed}
    (numbered : Numbered aead key direction counter written frames) {frame : Sealed}
    (member : frame ∈ frames) :
    ∃ index plaintext, written[index]? = some plaintext ∧
      FrameAt aead key direction (counter + UInt64.ofNat index) plaintext frame := by
  obtain ⟨index, bound, rfl⟩ := List.getElem_of_mem member
  obtain ⟨plaintext, shown, placed⟩ :=
    numbered.placed index _ (List.getElem?_eq_getElem bound)
  exact ⟨index, plaintext, shown, placed⟩

theorem Numbered.nodup_iff {written : List (List UInt8)} {frames : List Sealed}
    (numbered : Numbered aead key direction counter written frames) :
    (frames.map Sealed.nonce).Nodup ↔ written.length ≤ 2 ^ 64 := by
  have nonces : ∀ (index : Nat) (bound : index < frames.length),
      frames[index].nonce = makeNonce direction (counter + UInt64.ofNat index) := by
    intro index bound
    obtain ⟨_, _, placed⟩ := numbered.placed index _ (List.getElem?_eq_getElem bound)
    exact placed.nonce
  rw [List.Nodup, List.pairwise_iff_getElem, ← numbered.lengths]
  constructor
  · intro distinct
    by_contra many
    have first : 0 < (frames.map Sealed.nonce).length := by rw [List.length_map]; omega
    have last : 2 ^ 64 < (frames.map Sealed.nonce).length := by rw [List.length_map]; omega
    refine distinct 0 (2 ^ 64) first last (by decide) ?_
    rw [List.getElem_map, List.getElem_map, nonces, nonces]
    rfl
  · intro few left right leftBound rightBound before same
    rw [List.length_map] at leftBound rightBound
    rw [List.getElem_map, List.getElem_map, nonces, nonces] at same
    have offsets := (UInt64.add_right_inj _).mp (makeNonce_injective same).2
    have equal := counter_injective (by omega) (by omega) offsets
    omega

section Attacked

variable {other : UInt8} {written otherWritten : List (List UInt8)} {frames otherFrames : List Sealed}
  (lawful : aead.Lawful) (own : Numbered aead key direction 0 written frames)
  (reverse : Numbered aead key other 0 otherWritten otherFrames) (apart : direction ≠ other)
  (few : written.length < 2 ^ 64)
include lawful own reverse apart few

theorem opened_written {bytes ciphertext plaintext : List UInt8}
    (authentic : Authentic aead key (frames ++ otherFrames) bytes)
    (within : ciphertext <:+: bytes) {index : Nat} (inside : index ≤ written.length)
    (opened : decryptFrame aead key direction (UInt64.ofNat index) ciphertext = .ok plaintext) :
    written[index]? = some plaintext := by
  simp only [decryptFrame] at opened
  split at opened
  · cases opened
  · rename_i padded decrypted
    obtain ⟨frame, member, _, nonce, rfl⟩ := authentic _ _ _ within decrypted
    cases List.mem_append.mp member with
    | inl member =>
      obtain ⟨place, content, shown, placed⟩ := own.of_mem member
      obtain ⟨bound, _⟩ := List.getElem?_eq_some_iff.mp shown
      rw [UInt64.zero_add] at placed
      have counters := (makeNonce_injective (placed.nonce.symm.trans nonce)).2
      obtain rfl := counter_injective (by omega) (by omega) counters
      have plain := lawful.opens placed.encrypted
      rw [decrypted, Option.some.injEq] at plain
      rw [plain, placed.content] at opened
      cases opened
      exact shown
    | inr member =>
      obtain ⟨_, _, _, placed⟩ := reverse.of_mem member
      exact absurd (makeNonce_injective (placed.nonce.symm.trans nonce)).1 apart.symm

theorem delivered_prefix {incoming : Incoming}
    (authentic : Authentic aead key (frames ++ otherFrames) incoming.bytes) {index : Nat}
    (inside : index ≤ written.length) :
    (copyIn aead key direction (UInt64.ofNat index) incoming).delivered <+:
      written.drop index := by
  induction sized : incoming.bytes.length using Nat.strongRecOn generalizing incoming index with
  | ind size ih =>
    cases read : readFrameOrEnd aead key direction (UInt64.ofNat index) incoming with
    | error error => simp [copyIn_error read]
    | ok result =>
      cases result with
      | none => simp [copyIn_end read]
      | some result =>
        obtain ⟨plaintext, next, rest⟩ := result
        obtain ⟨ciphertext, split, opened, rfl⟩ := readFrameOrEnd_ok read
        have here : ciphertext <:+: incoming.bytes := by
          rw [split]
          exact List.infix_append _ _ _
        have behind : rest.bytes <:+: incoming.bytes := by
          rw [split]
          exact (List.suffix_append _ _).isInfix
        have shown := opened_written lawful own reverse apart few authentic here inside opened
        obtain ⟨bound, found⟩ := List.getElem?_eq_some_iff.mp shown
        have shorter : rest.bytes.length < size := by
          rw [← sized, split, List.length_append, List.length_append, length_beBytes]
          omega
        have later := ih _ shorter (authentic.of_infix behind) bound rfl
        rw [copyIn_frame read, List.drop_eq_getElem_cons bound, found]
        rw [Nat.succ_eq_add_one, UInt64.ofNat_add] at later
        exact (List.prefix_cons_inj plaintext).mpr later

end Attacked

end Direction

/-- In a session with fewer frames in each direction than there are counters,
each reader delivers a prefix of what the other side wrote, whatever arrives. It
delivers all of it if what arrives is what was sent. Each frame is within the
limit of the reader, and no key and nonce seal two frames. -/
theorem session_delivers_prefix {aead : Aead} (lawful : aead.Lawful) (session : Session)
    (fewUp : session.client.length < 2 ^ 64) (fewDown : session.server.length < 2 ^ 64) :
    let upstream := session.upstream aead
    let downstream := session.downstream aead
    (upstream.written <+: session.client.map Prod.fst ∧
      (upstream.error = none → upstream.written = session.client.map Prod.fst) ∧
      downstream.written <+: session.server.map Prod.fst ∧
      (downstream.error = none → downstream.written = session.server.map Prod.fst)) ∧
    (∀ incoming : Incoming, Authentic aead session.key (session.sealed aead) incoming.bytes →
      (copyIn aead session.key clientToServer 0 incoming).delivered <+: upstream.written ∧
      (copyIn aead session.key serverToClient 0 incoming).delivered <+: downstream.written) ∧
    copyIn aead session.key clientToServer 0 ⟨upstream.bytes, true⟩ = ⟨upstream.written, none⟩ ∧
    copyIn aead session.key serverToClient 0 ⟨downstream.bytes, true⟩ =
      ⟨downstream.written, none⟩ ∧
    (∀ frame ∈ session.sealed aead, frame.ciphertext.length ≤ maxCiphertext) ∧
    ((session.sealed aead).map (fun frame => (frame.key, frame.nonce))).Nodup := by
  have up := copyOut_numbered aead session.key clientToServer 0 session.client
  have down := copyOut_numbered aead session.key serverToClient 0 session.server
  have writtenUp := copyOut_written aead session.key clientToServer 0 session.client
  have writtenDown := copyOut_written aead session.key serverToClient 0 session.server
  have shortUp := Nat.lt_of_le_of_lt (by simpa using writtenUp.1.length_le) fewUp
  have shortDown := Nat.lt_of_le_of_lt (by simpa using writtenDown.1.length_le) fewDown
  refine ⟨⟨writtenUp.1, writtenUp.2, writtenDown.1, writtenDown.2⟩, ?_,
    copyIn_copyOut lawful _ _ _ _, copyIn_copyOut lawful _ _ _ _, ?_, ?_⟩
  · intro incoming authentic
    refine ⟨?_, ?_⟩
    · exact delivered_prefix lawful up down (by decide) shortUp authentic (Nat.zero_le _)
    · have turned : Authentic aead session.key
          ((session.downstream aead).frames ++ (session.upstream aead).frames) incoming.bytes := by
        intro nonce ciphertext plaintext within opened
        obtain ⟨frame, member, sealed⟩ := authentic nonce ciphertext plaintext within opened
        exact ⟨frame, by simpa [Session.sealed, or_comm] using member, sealed⟩
      exact delivered_prefix lawful down up (by decide) shortDown turned (Nat.zero_le _)
  · intro frame member
    cases List.mem_append.mp member with
    | inl member =>
        obtain ⟨_, _, _, placed⟩ := up.of_mem member
        exact placed.ciphertext_le lawful
    | inr member =>
        obtain ⟨_, _, _, placed⟩ := down.of_mem member
        exact placed.ciphertext_le lawful
  · refine List.Nodup.of_map Prod.snd ?_
    rw [List.map_map, Session.sealed, List.map_append, List.nodup_append]
    refine ⟨up.nodup_iff.mpr (Nat.le_of_lt shortUp), down.nodup_iff.mpr (Nat.le_of_lt shortDown), ?_⟩
    intro nonce leftMember other rightMember same
    obtain ⟨left, leftIn, rfl⟩ := List.mem_map.mp leftMember
    obtain ⟨right, rightIn, rfl⟩ := List.mem_map.mp rightMember
    obtain ⟨_, _, _, leftPlaced⟩ := up.of_mem leftIn
    obtain ⟨_, _, _, rightPlaced⟩ := down.of_mem rightIn
    have nonces := leftPlaced.nonce.symm.trans (same.trans rightPlaced.nonce)
    exact absurd (makeNonce_injective nonces).1 (by decide)

namespace Sample

def aead : Aead where
  encrypt _ nonce plaintext :=
    if plaintext.length = minFrameSize then some (nonce.val ++ [7, 7, 7, 7] ++ plaintext) else none
  decrypt _ nonce ciphertext :=
    if ciphertext.length = minFrameSize + 16 ∧ ciphertext.take 16 = nonce.val ++ [7, 7, 7, 7] then
      some (ciphertext.drop 16)
    else none

theorem aead_lawful : aead.Lawful := by
  have tag : ∀ nonce : Nonce, (nonce.val ++ [7, 7, 7, 7]).length = 16 := by
    intro nonce
    simp [nonce.property]
  constructor
  · intro key nonce plaintext ciphertext encrypted
    simp only [aead] at encrypted ⊢
    split at encrypted
    · rename_i sized
      cases encrypted
      rw [if_pos ⟨by rw [List.length_append, tag, sized, Nat.add_comm], List.take_left' (tag nonce)⟩,
        List.drop_left' (tag nonce)]
    · cases encrypted
  · intro key nonce plaintext ciphertext encrypted
    simp only [aead] at encrypted
    split at encrypted
    · cases encrypted
      rw [List.length_append, tag, Nat.add_comm]
    · cases encrypted

def key : SessionKey := ByteArr.zero 32

theorem write_empty (direction : UInt8) (counter : UInt64) :
    ∃ frame, writeEncryptedFrame aead key direction counter [] 0 = .ok (frame, counter + 1) := by
  have sized : (paddedPlaintext [] 0).length = minFrameSize :=
    length_paddedPlaintext (Nat.zero_le _) 0
  simp only [writeEncryptedFrame, aead, sized, if_true]
  exact ⟨_, if_neg (Nat.not_lt_zero _)⟩

theorem length_written_empty (direction : UInt8) (count : Nat) (counter : UInt64) :
    (copyOut aead key direction counter (List.replicate count ([], 0))).written.length = count := by
  induction count generalizing counter with
  | zero => rfl
  | succ count ih =>
    obtain ⟨frame, wrote⟩ := write_empty direction counter
    simp only [List.replicate_succ, copyOut, wrote, List.length_cons, ih]

def session : Session := ⟨key, [([1], 0), ([2], 0)], [([3], 0)]⟩

def cut : Incoming := ⟨((session.upstream aead).frames.take 1).flatMap Sealed.frame, true⟩

theorem cut_tagged : cut.bytes.length = 788 ∧ ∀ place ≤ 4,
    (((cut.bytes.drop place).take 784).take 16).drop 12 = [7, 7, 7, 7] →
      ∃ frame ∈ session.sealed aead, frame.key = session.key ∧
        frame.nonce.val = ((cut.bytes.drop place).take 784).take 12 ∧
        frame.ciphertext = (cut.bytes.drop place).take 784 := by
  decide +kernel

theorem cut_authentic : Authentic aead session.key (session.sealed aead) cut.bytes := by
  rintro nonce ciphertext plaintext ⟨before, behind, joined⟩ opened
  simp only [aead] at opened
  split at opened
  · rename_i shape
    obtain ⟨sized, tagged⟩ := shape
    obtain ⟨whole, pieces⟩ := cut_tagged
    have lengths := congrArg List.length joined
    simp only [List.length_append, sized, whole, minFrameSize] at lengths
    have piece : (cut.bytes.drop before.length).take 784 = ciphertext := by
      rw [← joined, List.append_assoc, List.drop_left]
      exact List.take_left' sized
    have found := pieces before.length (by omega)
    rw [piece, tagged, List.drop_left' nonce.property] at found
    obtain ⟨frame, member, keyed, front, same⟩ := found rfl
    have nonces : ciphertext.take 12 = nonce.val := by
      have fronts := congrArg (List.take 12) tagged
      rwa [List.take_take, List.take_left' nonce.property] at fronts
    exact ⟨frame, member, keyed, Subtype.ext (front.trans nonces), same⟩
  · cases opened

end Sample

/-- A session with one frame more than there are counters seals two frames under
one key and nonce. -/
theorem wrapped_counter_reuses_nonce :
    let session : Session := ⟨Sample.key, List.replicate (2 ^ 64 + 1) ([], 0), []⟩
    ¬((session.sealed Sample.aead).map (fun frame => (frame.key, frame.nonce))).Nodup := by
  have many := Sample.length_written_empty clientToServer (2 ^ 64 + 1) 0
  generalize List.replicate (2 ^ 64 + 1) (([], 0) : List UInt8 × UInt32) = plaintexts at many ⊢
  intro session distinct
  have numbered := copyOut_numbered Sample.aead Sample.key clientToServer 0 plaintexts
  have keyed : ∀ frame ∈ (session.upstream Sample.aead).frames, frame.key = Sample.key := by
    intro frame member
    obtain ⟨_, _, _, placed⟩ := numbered.of_mem member
    exact placed.keyed
  rw [Session.sealed, List.map_append] at distinct
  have upstream := (List.nodup_append.mp distinct).1
  have nonces : ((session.upstream Sample.aead).frames.map Sealed.nonce).Nodup := by
    rw [List.Nodup, List.pairwise_map] at upstream ⊢
    refine upstream.imp_of_mem ?_
    intro left right leftMember rightMember differ same
    exact differ (Prod.ext ((keyed left leftMember).trans (keyed right rightMember).symm) same)
  have few := numbered.nodup_iff.mp nonces
  omega

/-- The plaintext of the frame that arrives is a prefix of the two written. -/
theorem cut_session_delivers_prefix :
    Authentic Sample.aead Sample.session.key (Sample.session.sealed Sample.aead) Sample.cut.bytes ∧
      (copyIn Sample.aead Sample.session.key clientToServer 0 Sample.cut).delivered <+:
        (Sample.session.upstream Sample.aead).written :=
  ⟨Sample.cut_authentic,
    (( session_delivers_prefix Sample.aead_lawful Sample.session (by decide) (by decide)).2.1
      Sample.cut Sample.cut_authentic).1⟩

end Werewolf.Transport
