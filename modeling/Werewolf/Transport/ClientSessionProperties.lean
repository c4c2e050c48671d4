import Werewolf.Transport.ClientSession

/-! An initiator signs at most one OPEN for a session, whatever happens: an OPEN
answers a challenge, and a receiver that has begun its challenge is not tried
again. -/

namespace Werewolf.Transport
open Governance State Library Procedure
open Control (ExpectedPeerIdentity)

private theorem toOption_eq_some {ε α : Type} {result : Except ε α} {value : α} :
    result.toOption = some value ↔ result = .ok value := by
  cases result <;> simp [Except.toOption]

section Reading

theorem countRead_eq_zero_iff {limit : Nat} {bytes : List UInt8} (positive : limit ≠ 0) :
    countRead limit bytes = 0 ↔ bytes = [] := by
  cases limit with
  | zero => exact absurd rfl positive
  | succ limit =>
    cases bytes with
    | nil => simp [countRead]
    | cons byte rest =>
      simp only [countRead, reduceCtorEq, iff_false]
      split <;> simp

theorem countRead_pos_of_readLine {limit : Nat} {bytes line behind : List UInt8}
    (read : readLine limit bytes = some (line, behind)) : countRead limit bytes ≠ 0 := by
  cases limit with
  | zero => cases read
  | succ limit =>
    rw [ne_eq, countRead_eq_zero_iff (Nat.succ_ne_zero limit)]
    rintro rfl
    cases read

end Reading

/-- One attempt that went through: what was read, signed, answered and verified
in it. -/
structure Exchange (client : Client) (identity : PeltIdentity) (remote : String)
    (expected : ExpectedPeerIdentity) (network : Network) where
  line : List UInt8
  behind : List UInt8
  challenge : TcpChallenge
  secret : ByteArr 32
  nonce : ByteArr 16
  message : TcpOpen
  retained : List UInt8
  answer : List UInt8
  rest : List UInt8
  ack : TcpAck
  covered : List UInt8
  key : SessionKey
  challenged : readLine challengeLimit network.early = some (line, behind)
  parsed : client.readChallenge line = some challenge
  opened : TcpOpen.new client.toSigner identity challenge remote (client.publicKeyOf secret)
    nonce = some message
  signed : message.transcript client.toExternal = some retained
  answered : readLine messageLimit (behind ++ network.late) = some (answer, rest)
  acknowledged : client.readAck answer = some ack
  fingerprint : ack.receiverFingerprint = expected.fingerprint
  covers : ack.transcript client.toExternal message retained = some covered
  verified : verify client.toSuite ack.receiverPubkey covered ack.signature = some ()
  derived : deriveSharedKey client secret ack.serverX25519 = some key

theorem Exchange.expectedKey {client : Client} {identity : PeltIdentity} {remote : String}
    {expected : ExpectedPeerIdentity} {network : Network}
    (exchange : Exchange client identity remote expected network) :
    fingerprintFromPublicKeyB64 client.toExternal exchange.ack.receiverPubkey = some expected.fingerprint := by
  have covers := exchange.covers
  simp only [TcpAck.transcript, publicMatches, bind_eq_some, Authority.require_eq_some,
    decide_eq_true_eq] at covers
  obtain ⟨_, _, _, ⟨_, _, _, printed, _⟩, _⟩ := covers
  rw [printed, exchange.fingerprint]

section Attempting

variable {client : Client} {identity : PeltIdentity} {remote : String}
  {expected : ExpectedPeerIdentity} {network : Network}

def Modest (network : Network) (log : Log) : Prop :=
  log.challengeBytes = countRead challengeLimit network.early ∧
    (log.written = [] ∨ log.challengeBytes ≠ 0 ∧ ∃ message, log.written = [message])

theorem writeOpen_replies {log : Log} (message : TcpOpen) (fresh : log.written = [])
    (modest : Modest network log) (challenged : log.challengeBytes ≠ 0) :
    Replies log (writeOpen network message) (fun _ => Modest network)
      (fun _ next => next = { log with written := [message] } ∧ Modest network next) := by
  have begun : Modest network { log with written := log.written ++ [message] } := by
    refine ⟨modest.1, .inr ⟨challenged, message, ?_⟩⟩
    rw [fresh, List.nil_append]
  refine replies_check_bind (fun _ => modest) (fun _ => replies_alter_bind ?_)
  refine replies_check begun ⟨?_, begun⟩
  rw [fresh, List.nil_append]

theorem readChallenge_replies : Replies Log.empty (readChallenge client network) (fun _ => Modest network)
      (fun read log => log = ⟨countRead challengeLimit network.early, []⟩ ∧
        ∃ line, readLine challengeLimit network.early = some (line, read.2) ∧
          client.readChallenge line = some read.1) := by
  have counted : Modest network { Log.empty with challengeBytes := 0 + countRead challengeLimit network.early } :=
    ⟨Nat.zero_add _, .inl rfl⟩
  refine replies_alter_bind (replies_expect_bind counted (fun read found => ?_))
  refine replies_expect_bind counted (fun challenge parsed =>
    replies_pure ⟨?_, read.1, found, parsed⟩)
  simp [Log.empty]

theorem readAck_replies {log : Log} (behind : List UInt8) (modest : Modest network log) :
    Replies log (readAck client network behind) (fun _ => Modest network) (fun ack next => next = log ∧
        ∃ answer rest, readLine messageLimit (behind ++ network.late) = some (answer, rest) ∧
          client.readAck answer = some ack) := by
  refine replies_expect_bind modest (fun read found => ?_)
  exact replies_expect modest (fun ack acknowledged =>
    ⟨rfl, read.1, read.2, found, acknowledged⟩)

theorem clientHandshakeCounted_replies :
    Replies Log.empty (clientHandshakeCounted client identity remote expected network) (fun _ => Modest network)
      (fun key log => Modest network log ∧ ∃ exchange : Exchange client identity remote expected network,
          log.written = [exchange.message] ∧ exchange.key = key) := by
  refine replies_bind readChallenge_replies ?_
  rintro ⟨challenge, behind⟩ log ⟨rfl, line, challenged, parsed⟩
  have quiet : Modest network ⟨countRead challengeLimit network.early, []⟩ := ⟨rfl, .inl rfl⟩
  refine replies_expect_bind quiet (fun _ _ => replies_check_bind (fun _ => quiet) (fun _ => ?_))
  refine replies_expect_bind quiet (fun secret _ => replies_expect_bind quiet (fun nonce _ => ?_))
  refine replies_expect_bind quiet (fun message opened => ?_)
  refine replies_expect_bind quiet (fun retained signed => ?_)
  refine replies_bind (writeOpen_replies message rfl quiet (countRead_pos_of_readLine challenged)) ?_
  rintro _ _ ⟨rfl, begun⟩
  refine replies_bind (readAck_replies behind begun) ?_
  rintro ack _ ⟨rfl, answer, rest, answered, acknowledged⟩
  refine replies_check_bind (fun _ => begun) (fun fingerprint => ?_)
  refine replies_expect_bind begun (fun covered covers => ?_)
  refine replies_expect_bind begun (fun _ verified => ?_)
  refine replies_expect begun (fun key derived => ⟨begun, ⟨line, behind, challenge, secret,
    nonce, message, retained, answer, rest, ack, covered, key, challenged, parsed, opened,
    signed, answered, acknowledged, of_decide_eq_true fingerprint, covers, verified, derived⟩,
    rfl, rfl⟩)

structure Ends (client : Client) (identity : PeltIdentity) (remote : String)
    (expected : ExpectedPeerIdentity) (network : Network)
    (outcome : Except Setup SessionKey × Log) : Prop where
  opens : outcome.2.written.length ≤ 1
  retried : outcome.1 = .error .retry → outcome.2 = .empty ∧
    (network.opens = true → network.addressed = true → network.tls = .connected →
      network.early = [])
  kept : ∀ key, outcome.1 = .ok key →
    ∃ exchange : Exchange client identity remote expected network,
      outcome.2.written = [exchange.message] ∧ exchange.key = key

theorem ends_unheard {setup : Setup} (unheard : network.opens = true → network.addressed = true →
    network.tls = .connected → setup = .final) :
    Ends client identity remote expected network (.error setup, .empty) where
  opens := Nat.zero_le 1
  retried asked := by
    cases asked
    refine ⟨rfl, fun opens addressed connected => ?_⟩
    cases unheard opens addressed connected
  kept key returned := by cases returned

theorem tcpSessionAttempt_ends (client : Client) (identity : PeltIdentity) (remote : String)
    (expected : ExpectedPeerIdentity) (network : Network) :
    Ends client identity remote expected network (tcpSessionAttempt client identity remote expected network) := by
  unfold tcpSessionAttempt
  split
  · exact ends_unheard (fun _ _ _ => rfl)
  split
  · rename_i closed
    exact ends_unheard (fun opens => by simp [opens] at closed)
  split
  · rename_i unknown
    exact ends_unheard (fun _ addressed => by simp [addressed] at unknown)
  split
  · rename_i late
    exact ends_unheard (fun _ _ connected => by cases late.symm.trans connected)
  · exact ends_unheard (fun _ _ _ => rfl)
  · rename_i broken
    exact ends_unheard (fun _ _ connected => by cases broken.symm.trans connected)
  · obtain ⟨failed, succeeded⟩ :=
      @clientHandshakeCounted_replies client identity remote expected network
    split
    · rename_i key log executed
      rw [executed] at succeeded
      obtain ⟨_, exchange, written, same⟩ := succeeded key rfl
      dsimp only at written
      refine ⟨by simp [written], fun asked => (by cases asked), fun other returned => ?_⟩
      cases returned
      exact ⟨exchange, written, same⟩
    · rename_i error log executed
      rw [executed] at failed
      obtain ⟨counted, written⟩ := failed error rfl
      dsimp only at counted written
      refine ⟨?_, fun asked => ?_, fun _ returned => (by cases returned)⟩
      · rcases written with none | ⟨_, message, one⟩
        · simp [none]
        · simp [one]
      · by_cases silent : log.challengeBytes = 0
        · have none := written.resolve_right (fun begun => begun.1 silent)
          have early := (countRead_eq_zero_iff (by decide)).mp (counted.symm.trans silent)
          exact ⟨congrArg₂ Log.mk silent none, fun _ _ _ => early⟩
        · simp [silent] at asked

end Attempting

/-- At most two attempts and one OPEN. The first attempt is repeated only if no
byte of a challenge arrived, and a key comes only with an ACK of the expected peer
to the OPEN of the last attempt. -/
theorem session_takes_one_open (client : Client) (identity : PeltIdentity) (remote : String)
    (expected : ExpectedPeerIdentity) (first second : Network) :
    let connected := connectTcpSession client identity remote expected first second
    (1 ≤ connected.1.length ∧ connected.1.length ≤ 2) ∧
    (connected.1.flatMap Log.written).length ≤ 1 ∧
    (connected.1.length = 2 → connected.1.head?.map Log.challengeBytes = some 0 ∧
      (first.opens = true → first.addressed = true → first.tls = .connected →
        first.early = [])) ∧
    (∀ earlier log later, connected.1 = earlier ++ log :: later → log.challengeBytes ≠ 0 → later = []) ∧
    ∀ key, connected.2 = some key →
      ∃ earlier network log, [first, second].zip connected.1 = earlier ++ [(network, log)] ∧
        ∃ exchange : Exchange client identity remote expected network,
          log.written = [exchange.message] ∧ exchange.key = key ∧
          fingerprintFromPublicKeyB64 client.toExternal exchange.ack.receiverPubkey = some expected.fingerprint := by
  have firstEnds := tcpSessionAttempt_ends client identity remote expected first
  have secondEnds := tcpSessionAttempt_ends client identity remote expected second
  dsimp only
  unfold connectTcpSession
  split
  · rename_i log attempted
    rw [attempted] at firstEnds
    obtain ⟨rfl, silent⟩ := firstEnds.retried rfl
    refine ⟨⟨by simp, by simp⟩, by simpa [Log.empty] using secondEnds.opens,
      fun _ => ⟨rfl, silent⟩, fun earlier log later split spoken => ?_, fun key kept => ?_⟩
    · rcases List.append_eq_cons_iff.mp split.symm with ⟨rfl, same⟩ | ⟨_, rfl, same⟩
      · cases same
        exact absurd rfl spoken
      · exact (List.append_eq_singleton_iff.mp same.symm).elim
          (fun alone => (List.cons.inj alone.2).2) (fun alone => by cases alone.2)
    · obtain ⟨exchange, written, same⟩ := secondEnds.kept key (toOption_eq_some.mp kept)
      exact ⟨[(first, .empty)], second, _, rfl, exchange, written, same, exchange.expectedKey⟩
  · rename_i result log unretried attempted
    rw [attempted] at firstEnds
    refine ⟨⟨by simp, by simp⟩, by simpa using firstEnds.opens, fun twice => by simp at twice,
      fun earlier log later split _ => ?_, fun key kept => ?_⟩
    · exact (List.append_eq_singleton_iff.mp split.symm).elim
        (fun alone => (List.cons.inj alone.2).2) (fun alone => by cases alone.2)
    · obtain ⟨exchange, written, same⟩ := firstEnds.kept key (toOption_eq_some.mp kept)
      exact ⟨[], first, log, rfl, exchange, written, same, exchange.expectedKey⟩

end Werewolf.Transport
