import Werewolf.Library.Reader

/-! The encrypted stream of a TCP session: one padded frame for each piece of
plaintext, sealed under the session key and a nonce of the direction and a
counter, and the loops that write and read the frames. -/

namespace Werewolf.Transport
open Library

abbrev SessionKey := ByteArr 32

abbrev Nonce := ByteArr 12

/-- ChaCha20-Poly1305, from outside the repository. -/
structure Aead where
  encrypt : SessionKey → Nonce → List UInt8 → Option (List UInt8)
  decrypt : SessionKey → Nonce → List UInt8 → Option (List UInt8)

inductive StreamError
  /-- "plaintext frame exceeds hide limit" -/
  | plaintextTooLong
  /-- "encrypt failed" -/
  | encryptFailed
  /-- The bytes end before the frame does, or without a close. -/
  | unexpectedEnd
  /-- "frame too large" -/
  | frameTooLarge
  /-- "decrypt failed" -/
  | decryptFailed
  /-- "bad frame" -/
  | badFrame
  /-- "bad plaintext length" -/
  | badPlaintextLength
deriving DecidableEq, Repr

def minFrameSize : Nat := 768
def maxFrameSize : Nat := 2048
def frameStep : Nat := 128
def maxCiphertext : Nat := 4096

def makeNonce (direction : UInt8) (counter : UInt64) : Nonce :=
  ⟨direction :: 0 :: 0 :: 0 :: beBytes 8 counter.toNat, by simp⟩

def frameSize (length : Nat) (random : UInt32) : Nat :=
  let minimumNeeded := length + 2
  let minBucket := max minimumNeeded minFrameSize
  let buckets := (maxFrameSize - minBucket) / frameStep + 1
  let randomBucket := if 1 < buckets then random.toNat % buckets else 0
  minBucket + randomBucket * frameStep

def paddedPlaintext (plaintext : List UInt8) (random : UInt32) : List UInt8 :=
  (beBytes 2 plaintext.length ++ plaintext).rightpad (frameSize plaintext.length random) 0

structure Sealed where
  key : SessionKey
  nonce : Nonce
  plaintext : List UInt8
  ciphertext : List UInt8

def Sealed.frame (frame : Sealed) : List UInt8 :=
  beBytes 4 frame.ciphertext.length ++ frame.ciphertext

def writeEncryptedFrame (aead : Aead) (key : SessionKey) (direction : UInt8) (counter : UInt64)
    (plaintext : List UInt8) (random : UInt32) : Except StreamError (Sealed × UInt64) :=
  if maxFrameSize - 2 < plaintext.length then .error .plaintextTooLong
  else
    let padded := paddedPlaintext plaintext random
    let nonce := makeNonce direction counter
    match aead.encrypt key nonce padded with
    | none => .error .encryptFailed
    | some ciphertext => .ok (⟨key, nonce, padded, ciphertext⟩, counter + 1)

structure Outgoing where
  written : List (List UInt8)
  frames : List Sealed
  error : Option StreamError

def Outgoing.bytes (outgoing : Outgoing) : List UInt8 := outgoing.frames.flatMap Sealed.frame

def copyOut (aead : Aead) (key : SessionKey) (direction : UInt8) :
    UInt64 → List (List UInt8 × UInt32) → Outgoing
  | _, [] => ⟨[], [], none⟩
  | counter, (plaintext, random) :: rest =>
      match writeEncryptedFrame aead key direction counter plaintext random with
      | .error error => ⟨[], [], some error⟩
      | .ok (frame, counter) =>
          let later := copyOut aead key direction counter rest
          ⟨plaintext :: later.written, frame :: later.frames, later.error⟩

structure Incoming where
  bytes : List UInt8
  closed : Bool

def unpad (padded : List UInt8) : Except StreamError (List UInt8) :=
  if padded.length < 2 then .error .badFrame
  else
    let realLength := beValue (padded.take 2)
    if padded.length - 2 < realLength then .error .badPlaintextLength
    else .ok ((padded.drop 2).take realLength)

def readCiphertext : Reader StreamError (List UInt8) := do
  let length ← Reader.number .unexpectedEnd 4
  Reader.lift (if maxCiphertext < length then .error .frameTooLarge else .ok ())
  let ciphertext ← Reader.take .unexpectedEnd length
  return ciphertext.val

def decryptFrame (aead : Aead) (key : SessionKey) (direction : UInt8) (counter : UInt64)
    (ciphertext : List UInt8) : Except StreamError (List UInt8) :=
  match aead.decrypt key (makeNonce direction counter) ciphertext with
  | none => .error .decryptFailed
  | some padded => unpad padded

/-- The plaintext of the next frame, with the next counter and what is left, or
`none` at a close between two frames. -/
def readFrameOrEnd (aead : Aead) (key : SessionKey) (direction : UInt8) (counter : UInt64)
    (incoming : Incoming) : Except StreamError (Option (List UInt8 × UInt64 × Incoming)) :=
  if incoming.bytes = [] then
    if incoming.closed then .ok none else .error .unexpectedEnd
  else do
    let (ciphertext, rest) ← readCiphertext incoming.bytes
    let plaintext ← decryptFrame aead key direction counter ciphertext
    return some (plaintext, counter + 1, { incoming with bytes := rest })

theorem readCiphertext_ok {bytes rest ciphertext : List UInt8}
    (read : readCiphertext bytes = .ok (ciphertext, rest)) :
    bytes = beBytes 4 ciphertext.length ++ ciphertext ++ rest := by
  simp only [readCiphertext, Reader.bind_ok_iff, Reader.lift_ok_iff, Reader.pure_ok_iff] at read
  obtain ⟨length, middle, numbered, _, _, ⟨_, rfl⟩, taken, _, took, rfl, rfl⟩ := read
  rw [Reader.number_inverts _ _ _ _ _ numbered, Reader.take_inverts _ _ _ _ _ took, taken.property, List.append_assoc]

theorem readFrameOrEnd_ok {aead : Aead} {key : SessionKey} {direction : UInt8}
    {counter next : UInt64} {incoming rest : Incoming} {plaintext : List UInt8}
    (read : readFrameOrEnd aead key direction counter incoming = .ok (some (plaintext, next, rest))) :
    ∃ ciphertext, incoming.bytes = beBytes 4 ciphertext.length ++ ciphertext ++ rest.bytes ∧
      decryptFrame aead key direction counter ciphertext = .ok plaintext ∧
      next = counter + 1 := by
  simp only [readFrameOrEnd] at read
  split at read
  · split at read <;> cases read
  · simp only [bind_eq_ok, Prod.exists, return_eq_ok, Option.some.injEq, Prod.mk.injEq] at read
    obtain ⟨ciphertext, later, framed, _, opened, rfl, rfl, rfl⟩ := read
    exact ⟨ciphertext, readCiphertext_ok framed, opened, rfl⟩

structure Delivery where
  delivered : List (List UInt8)
  error : Option StreamError

def copyIn (aead : Aead) (key : SessionKey) (direction : UInt8) (counter : UInt64)
    (incoming : Incoming) : Delivery :=
  match _ : readFrameOrEnd aead key direction counter incoming with
  | .error error => ⟨[], some error⟩
  | .ok none => ⟨[], none⟩
  | .ok (some (plaintext, counter, rest)) =>
      let later := copyIn aead key direction counter rest
      ⟨plaintext :: later.delivered, later.error⟩
termination_by incoming.bytes.length
decreasing_by
  rename_i read
  obtain ⟨ciphertext, framed, _⟩ := readFrameOrEnd_ok read
  simp only [framed, List.length_append, length_beBytes]
  omega

section Loop

variable {aead : Aead} {key : SessionKey} {direction : UInt8} {counter : UInt64}
  {incoming : Incoming}

theorem copyIn_error {error : StreamError}
    (read : readFrameOrEnd aead key direction counter incoming = .error error) :
    copyIn aead key direction counter incoming = ⟨[], some error⟩ := by
  rw [copyIn]
  split <;> simp_all

theorem copyIn_end (read : readFrameOrEnd aead key direction counter incoming = .ok none) :
    copyIn aead key direction counter incoming = ⟨[], none⟩ := by
  rw [copyIn]
  split <;> simp_all

theorem copyIn_frame {plaintext : List UInt8} {next : UInt64} {rest : Incoming}
    (read : readFrameOrEnd aead key direction counter incoming = .ok (some (plaintext, next, rest))) :
    copyIn aead key direction counter incoming = ⟨plaintext :: (copyIn aead key direction next rest).delivered,
        (copyIn aead key direction next rest).error⟩ := by
  rw [copyIn]
  split <;> simp_all

end Loop

def clientToServer : UInt8 := 0
def serverToClient : UInt8 := 1

structure Session where
  key : SessionKey
  client : List (List UInt8 × UInt32)
  server : List (List UInt8 × UInt32)

def Session.upstream (aead : Aead) (session : Session) : Outgoing :=
  copyOut aead session.key clientToServer 0 session.client

def Session.downstream (aead : Aead) (session : Session) : Outgoing :=
  copyOut aead session.key serverToClient 0 session.server

def Session.sealed (aead : Aead) (session : Session) : List Sealed :=
  (session.upstream aead).frames ++ (session.downstream aead).frames

end Werewolf.Transport
