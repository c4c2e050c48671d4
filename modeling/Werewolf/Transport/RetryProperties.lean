import Werewolf.Transport.AuthenticationProperties
import Werewolf.Transport.ClientSessionProperties

/-! Which failures of a setup are tried again. The connect tells a TLS alert from a
failure of the transport, but what fails the first read after it is not looked at. -/

namespace Werewolf.Transport
open Governance State Library Procedure
open Control (ExpectedPeerIdentity)

/-- What an attempt meets, and whether a read or write that fails after the connect
reports a TLS alert. -/
structure Wire extends Network where
  alerted : Bool

/-- The attempt ends at a read or write that fails: before the end of the challenge,
while it writes its OPEN, or before the end of the ACK. -/
def Network.Starves (network : Network) (log : Log) : Prop :=
  match readLine challengeLimit network.early with
  | none => network.early.length < challengeLimit
  | some (_, behind) =>
      log.written ≠ [] ∧ (network.writes = false ∨ readLine messageLimit (behind ++ network.late) = none ∧
          (behind ++ network.late).length < messageLimit)

def Wire.FailsBefore (wire : Wire) : Prop :=
  wire.opens = false ∨ wire.addressed = false ∨ wire.tls = .timedOut ∨
    wire.tls = .failed false ∨ wire.tls = .connected ∧ wire.early = [] ∧ wire.alerted = false

section Retrying

variable (client : Client) (identity : PeltIdentity) (remote : String)
  (expected : ExpectedPeerIdentity)

def Reaches (wire : Wire) : Prop :=
  client.configures expected.publicKeyB64 = true ∧ wire.opens = true ∧ wire.addressed = true

def EndsInAlert (wire : Wire) : Prop :=
  Reaches client expected wire ∧ (wire.tls = .failed true ∨ wire.tls = .connected ∧ wire.alerted = true ∧
      wire.Starves (tcpSessionAttempt client identity remote expected wire.toNetwork).2)

def attempts (first second : Wire) : Nat :=
  (connectTcpSession client identity remote expected first.toNetwork second.toNetwork).1.length

/-- No second attempt after an alert or a failed pin, and one only after a failure
of the transport before the challenge. -/
def RetriesTransportOnly (first second : Wire) : Prop :=
  (EndsInAlert client identity remote expected first → attempts client identity remote expected first second = 1) ∧
    (attempts client identity remote expected first second = 2 → first.FailsBefore)

def AlertForChallenge (wire : Wire) : Prop :=
  Reaches client expected wire ∧ wire.tls = .connected ∧ wire.early = [] ∧ wire.alerted = true

end Retrying

section Attempts

variable {client : Client} {identity : PeltIdentity} {remote : String}
  {expected : ExpectedPeerIdentity} {wire : Wire}

theorem attempts_eq_two_iff {first second : Wire} : attempts client identity remote expected first second = 2 ↔
      (tcpSessionAttempt client identity remote expected first.toNetwork).1 = .error .retry := by
  unfold attempts connectTcpSession
  split
  · rename_i attempted
    simp [attempted]
  · rename_i result log unretried attempted
    simp only [List.length_singleton, OfNat.one_ne_ofNat, false_iff, attempted]
    exact unretried

theorem attempts_eq_one_iff {first second : Wire} : attempts client identity remote expected first second = 1 ↔
      attempts client identity remote expected first second ≠ 2 := by
  unfold attempts connectTcpSession
  split <;> simp

theorem tcpSessionAttempt_silent (reaches : Reaches client expected wire)
    (connected : wire.tls = .connected) (silent : wire.early = []) :
    tcpSessionAttempt client identity remote expected wire.toNetwork = (.error .retry, .empty) := by
  obtain ⟨configured, opens, addressed⟩ := reaches
  have handshake : execute (clientHandshakeCounted client identity remote expected
      wire.toNetwork) Log.empty = (.error (), .empty) := by
    simp only [clientHandshakeCounted, readChallenge, execute_bind, execute_alter, silent]
    rfl
  simp only [tcpSessionAttempt, configured, opens, addressed, connected, handshake]
  rfl

theorem tcpSessionAttempt_pinned (reaches : Reaches client expected wire) (failed : wire.tls = .failed true) :
    (tcpSessionAttempt client identity remote expected wire.toNetwork).1 = .error .final := by
  obtain ⟨configured, opens, addressed⟩ := reaches
  simp [tcpSessionAttempt, configured, opens, addressed, failed]

theorem reaches_of_retried (opens : wire.opens = true) (addressed : wire.addressed = true)
    (retried : (tcpSessionAttempt client identity remote expected wire.toNetwork).1 = .error .retry)
    : Reaches client expected wire := by
  refine ⟨?_, opens, addressed⟩
  cases configured : client.configures expected.publicKeyB64 with
  | true => rfl
  | false => simp [tcpSessionAttempt, configured] at retried

end Attempts

/-- A setup is retried after failures of the transport only, unless the receiver's
alert arrives in place of its challenge, which is retried as well. -/
theorem retries_transport_only_iff (client : Client) (identity : PeltIdentity) (remote : String)
    (expected : ExpectedPeerIdentity) (first second : Wire) :
    RetriesTransportOnly client identity remote expected first second ↔
      ¬ AlertForChallenge client expected first := by
  have ends := tcpSessionAttempt_ends client identity remote expected first.toNetwork
  constructor
  · rintro ⟨once, _⟩ ⟨reaches, connected, silent, alerted⟩
    have attempted := @tcpSessionAttempt_silent client identity remote expected first reaches connected silent
    have starves : first.Starves (tcpSessionAttempt client identity remote expected first.toNetwork).2 := by
      simp only [Network.Starves, silent]
      exact Nat.zero_lt_succ 511
    have single := once ⟨reaches, .inr ⟨connected, alerted, starves⟩⟩
    exact attempts_eq_one_iff.mp single (attempts_eq_two_iff.mpr (by rw [attempted]))
  · intro spoken
    refine ⟨fun alert => attempts_eq_one_iff.mpr fun twice => ?_, fun twice => ?_⟩
    · obtain ⟨reaches, failed | ⟨connected, alerted, _⟩⟩ := alert
      · rw [attempts_eq_two_iff, tcpSessionAttempt_pinned reaches failed] at twice
        cases twice
      · have silent := (ends.retried (attempts_eq_two_iff.mp twice)).2 reaches.2.1 reaches.2.2 connected
        exact spoken ⟨reaches, connected, silent, alerted⟩
    · have retried := attempts_eq_two_iff.mp twice
      cases opens : first.opens with
      | false => exact .inl opens
      | true =>
          cases addressed : first.addressed with
          | false => exact .inr (.inl addressed)
          | true =>
              have reaches := reaches_of_retried opens addressed retried
              cases tls : first.tls with
              | timedOut => exact .inr (.inr (.inl tls))
              | failed invalidData =>
                  cases invalidData with
                  | false => exact .inr (.inr (.inr (.inl tls)))
                  | true =>
                      rw [tcpSessionAttempt_pinned reaches tls] at retried
                      cases retried
              | connected =>
                  have silent := (ends.retried retried).2 opens addressed tls
                  have quiet : first.alerted = false := by
                    by_contra alerted
                    exact spoken ⟨reaches, tls, silent, by simpa using alerted⟩
                  exact .inr (.inr (.inr (.inr ⟨tls, silent, quiet⟩)))

namespace Sample

def client : Client where
  toSuite := suite
  sign key _ := ⟨key.val ++ key.val, by simp [key.property]⟩
  readChallenge _ := none
  readAck _ := none
  configures _ := true
  publicKeyOf := id
  diffieHellman secret _ := secret
  digest := id

/-- TLS completes for the initiator, and the receiver answers with an alert. -/
def refusing : Wire :=
  ⟨⟨true, true, .connected, [], none, none, true, []⟩, true⟩

end Sample

/-- The receiver refuses the initiator's TLS, and is tried a second time. -/
theorem alert_is_retried :
    EndsInAlert Sample.client ⟨"", "", ""⟩ "" ⟨"", none⟩ Sample.refusing ∧
      attempts Sample.client ⟨"", "", ""⟩ "" ⟨"", none⟩ Sample.refusing Sample.refusing = 2 := by
  have reaches : Reaches Sample.client ⟨"", none⟩ Sample.refusing := ⟨rfl, rfl, rfl⟩
  refine ⟨⟨reaches, .inr ⟨rfl, rfl, ?_⟩⟩, ?_⟩
  · change 0 < challengeLimit
    decide
  · rw [attempts_eq_two_iff, tcpSessionAttempt_silent reaches rfl rfl]

end Werewolf.Transport
