import Werewolf.Transport.AuthenticationProperties
import Werewolf.Transport.Replay

/-! No signed OPEN or RPC is accepted twice. A TCP connection takes one message for
the challenge it issued, and a QUIC connection each nonce of a sender once; what
tells connections apart is signed with the message. -/

namespace Werewolf.Transport
open Governance State Library
open Authority (Peer require require_eq_some)

section Guard

variable {suite : Suite} {daemon : Daemon} {around : Surroundings}

/-- The signature was verified over what it covers. -/
def Signed.Verifies (suite : Suite) (message : Signed) (covered : Option (List UInt8)) : Prop :=
  ∃ bytes key, covered = some bytes ∧ verify suite key bytes message.signature = some ()

/-- What passing the guard shows and leaves. -/
inductive Passes (suite : Suite) : Line → Signed → Line → Prop where
  | tcp {context : TcpChallengeContext} {message : Signed} (fresh : context.consumed = false)
      (challenged : message.challenge = some context.challenge)
      (addressed : message.receiver = context.receiver.fingerprint)
      (verifies : message.Verifies suite ((Line.tcp context).covers suite.toExternal message)) :
      Passes suite (.tcp context) message (.tcp { context with consumed := true })
  | quic {binding : ByteArr 32} {replay : QuicReplayV3} {message : Signed}
      {key : Peer × ByteArr 16} (keyed : message.key = some key)
      (room : replay.reservations.length < quicReservations) (new : key ∉ replay.reservations)
      (verifies : message.Verifies suite ((Link.quic binding).line.covers suite.toExternal
        message)) :
      Passes suite (.quic binding replay) message (.quic binding ⟨key :: replay.reservations⟩)

theorem consumeBinding_some {context next : TcpChallengeContext} {now : Nat} {challenge receiver : String}
    (consumed : context.consumeBinding now challenge receiver = some next) :
    context.consumed = false ∧ challenge = context.challenge ∧
      receiver = context.receiver.fingerprint ∧ next = { context with consumed := true } := by
  simp only [TcpChallengeContext.consumeBinding, TcpChallengeContext.checkBinding, bind_eq_some,
    return_eq_some, require_eq_some, Bool.and_eq_true, Bool.not_eq_true',
    decide_eq_true_eq] at consumed
  obtain ⟨_, ⟨⟨⟨fresh, _⟩, challenged⟩, addressed⟩, rfl⟩ := consumed
  exact ⟨fresh, challenged, addressed, rfl⟩

theorem reserve_some {replay next : QuicReplayV3} {message : Signed}
    (reserved : replay.reserve message.sender message.nonce = some next) :
    ∃ key, message.key = some key ∧ replay.reservations.length < quicReservations ∧
      key ∉ replay.reservations ∧ next = ⟨key :: replay.reservations⟩ := by
  simp only [QuicReplayV3.reserve, bind_eq_some, return_eq_some, require_eq_some,
    Bool.and_eq_true, decide_eq_true_eq] at reserved
  obtain ⟨peer, sender, bytes, nonce, _, ⟨room, new⟩, rfl⟩ := reserved
  refine ⟨(peer, bytes), ?_, room, new, rfl⟩
  simp [Signed.key, sender, nonce]

theorem passes_of_pass {line next : Line} {message : Signed}
    (passed : line.pass suite daemon around message = some next) : Passes suite line message next := by
  cases line with
  | tcp context =>
    cases message with
    | tcpOpen message =>
      obtain ⟨_, guarded, rfl⟩ := Option.map_eq_some_iff.mp passed
      simp only [tcpServerGuard, bind_eq_some, return_eq_some] at guarded
      obtain ⟨bytes, covered, _, _, _, _, _, verified, _, _, _, consumed, rfl⟩ := guarded
      obtain ⟨fresh, challenged, addressed, rfl⟩ := consumeBinding_some consumed
      exact .tcp fresh (congrArg some challenged) addressed ⟨bytes, _, covered, verified⟩
    | tcpRpc message =>
      obtain ⟨_, guarded, rfl⟩ := Option.map_eq_some_iff.mp passed
      simp only [tcpAnswerGuard, bind_eq_some] at guarded
      obtain ⟨bytes, covered, _, _, _, _, _, _, _, _, _, verified, _, _, consumed⟩ := guarded
      obtain ⟨fresh, challenged, addressed, rfl⟩ := consumeBinding_some consumed
      exact .tcp fresh (congrArg some challenged) addressed ⟨bytes, _, covered, verified⟩
    | quicOpen message => cases passed
    | quicRpc message => cases passed
  | quic binding replay =>
    cases message with
    | tcpOpen message => cases passed
    | tcpRpc message => cases passed
    | quicOpen message =>
      obtain ⟨_, guarded, rfl⟩ := Option.map_eq_some_iff.mp passed
      simp only [quicServerGuard, bind_eq_some, return_eq_some] at guarded
      obtain ⟨bytes, covered, _, _, _, _, _, _, _, verified, _, _, _, _, _, _, _, _, _, reserved,
        rfl⟩ := guarded
      obtain ⟨key, keyed, room, new, rfl⟩ := @reserve_some _ _ (.quicOpen message) reserved
      exact .quic keyed room new ⟨bytes, _, covered, verified⟩
    | quicRpc message =>
      obtain ⟨_, guarded, rfl⟩ := Option.map_eq_some_iff.mp passed
      simp only [quicAnswerGuard, bind_eq_some] at guarded
      obtain ⟨bytes, covered, _, _, _, _, _, _, _, _, _, verified, _, _, _, _, reserved⟩ := guarded
      obtain ⟨key, keyed, room, new, rfl⟩ := @reserve_some _ _ (.quicRpc message) reserved
      exact .quic keyed room new ⟨bytes, _, covered, verified⟩

end Guard

section Transcripts

def packed (fields : List (List UInt8)) : List UInt8 :=
  fields.flatMap (fun field => beBytes 4 field.length ++ field)

theorem packed_cons {field other : List UInt8} {rest others : List (List UInt8)} (short : field.length < 256 ^ 4)
    (shortToo : other.length < 256 ^ 4) (same : packed (field :: rest) = packed (other :: others)) :
    field = other ∧ packed rest = packed others := by
  simp only [packed, List.flatMap_cons, List.append_assoc] at same
  obtain ⟨size, same⟩ := List.append_inj same (by simp)
  exact List.append_inj same (beBytes_injective short shortToo size)

/-- Fields of known lengths stand at a fixed offset. -/
theorem packed_lead {lead other rest others : List (List UInt8)}
    (sizes : lead.map List.length = other.map List.length) (same : packed (lead ++ rest) = packed (other ++ others)) :
    lead = other ∧ packed rest = packed others := by
  induction lead generalizing other with
  | nil =>
    cases other with
    | nil => exact ⟨rfl, same⟩
    | cons field other => cases sizes
  | cons field lead ih =>
    cases other with
    | nil => cases sizes
    | cons another other =>
      obtain ⟨size, left⟩ := List.cons.inj sizes
      simp only [packed, List.cons_append, List.flatMap_cons, List.append_assoc, size] at same
      obtain ⟨rfl, behind⟩ := List.append_inj (List.append_cancel_left same) size
      obtain ⟨rfl, rest⟩ := ih left behind
      exact ⟨rfl, rest⟩

def Signed.domain : Signed → String
  | tcpOpen _ => "fang.tcp.open/v3"
  | tcpRpc _ => "fang.tcp.rpc/v1"
  | quicOpen _ => "fang.quic.open/v3"
  | quicRpc _ => "fang.quic.rpc/v1"

theorem Signed.domain_short (message : Signed) : (utf8 message.domain).length < 256 ^ 4 := by
  cases message <;> (simp only [Signed.domain]; decide +kernel)

theorem length_fingerprint {text : String} {peer : Peer}
    (parsed : Authority.fingerprint text = some peer) : (utf8 text).length = 28 :=
  Authority.fingerprint_size parsed

variable {external : External} {message : Signed} {bytes : List UInt8}

theorem covers_tcp {context : TcpChallengeContext}
    (covered : (Line.tcp context).covers external message = some bytes) :
    ∃ (challenge key : ByteArr 32) (rest : _), message.challenge.bind (unhex 32) = some challenge ∧
      (utf8 message.sender).length = 28 ∧ (utf8 message.receiver).length = 28 ∧
      bytes = transcript message.domain ([utf8 tcpProtocol, utf8 message.sender, key.val,
        utf8 message.receiver, challenge.val] ++ rest) := by
  cases message with
  | tcpOpen message =>
    simp only [Line.covers, TcpOpen.transcript, bind_eq_some, return_eq_some] at covered
    obtain ⟨_, _, _, sender, _, receiver, _, _, key, _, challenge, read, _, _, _, _, rfl⟩ := covered
    exact ⟨challenge, key, [_, _, _], read, length_fingerprint sender, length_fingerprint receiver,
      rfl⟩
  | tcpRpc message =>
    simp only [Line.covers, TcpRpc.transcript, bind_eq_some, return_eq_some] at covered
    obtain ⟨_, _, _, sender, _, receiver, key, _, challenge, read, _, _, rfl⟩ := covered
    exact ⟨challenge, key, [_, _, _, _], read, length_fingerprint sender, length_fingerprint receiver, rfl⟩
  | quicOpen message => cases covered
  | quicRpc message => cases covered

theorem covers_quic {binding : ByteArr 32} {replay : QuicReplayV3}
    (covered : (Line.quic binding replay).covers external message = some bytes) :
    ∃ (peer : Peer) (nonce : ByteArr 16) (rest : _),
      Authority.fingerprint message.sender = some peer ∧ unhex 16 message.nonce = some nonce ∧
      (utf8 message.sender).length = 28 ∧ (utf8 message.receiver).length = 28 ∧
      bytes = transcript message.domain ([utf8 quicProtocol, utf8 message.sender,
        utf8 message.receiver, nonce.val] ++ (rest ++ [binding.val])) := by
  cases message with
  | tcpOpen message => cases covered
  | tcpRpc message => cases covered
  | quicOpen message =>
    simp only [Line.covers, QuicOpen.transcript, bind_eq_some, return_eq_some] at covered
    obtain ⟨_, _, peer, sender, _, receiver, _, _, nonce, read, rfl⟩ := covered
    exact ⟨peer, nonce, [_], sender, read, length_fingerprint sender, length_fingerprint receiver, rfl⟩
  | quicRpc message =>
    simp only [Line.covers, QuicRpc.transcript, bind_eq_some, return_eq_some] at covered
    obtain ⟨_, _, peer, sender, _, receiver, nonce, read, rfl⟩ := covered
    exact ⟨peer, nonce, [_, _, _], sender, read, length_fingerprint sender, length_fingerprint receiver, rfl⟩

theorem transcript_same {another : Signed} {fields others : List (List UInt8)}
    (same : transcript message.domain fields = transcript another.domain others) :
    packed fields = packed others :=
  (packed_cons message.domain_short another.domain_short (List.append_cancel_left same)).2

theorem covers_tcp_same {context other : TcpChallengeContext} {another : Signed}
    (first : (Line.tcp context).covers external message = some bytes)
    (second : (Line.tcp other).covers external another = some bytes) :
    message.challenge.bind (unhex 32) = another.challenge.bind (unhex 32) := by
  obtain ⟨challenge, key, _, read, sender, receiver, rfl⟩ := covers_tcp first
  obtain ⟨again, keyToo, _, readToo, senderToo, receiverToo, same⟩ := covers_tcp second
  have lead := (packed_lead (by simp [sender, receiver, senderToo, receiverToo, key.2, keyToo.2,
    challenge.2, again.2]) (transcript_same same)).1
  simp only [List.cons.injEq] at lead
  rw [read, readToo, Subtype.ext lead.2.2.2.2.1]

theorem covers_quic_same {binding other : ByteArr 32} {replay replayToo : QuicReplayV3}
    {another : Signed} (first : (Line.quic binding replay).covers external message = some bytes)
    (second : (Line.quic other replayToo).covers external another = some bytes) :
    binding = other ∧ message.key = another.key := by
  obtain ⟨peer, nonce, rest, parsed, read, sender, receiver, rfl⟩ := covers_quic first
  obtain ⟨peerToo, nonceToo, others, parsedToo, readToo, senderToo, receiverToo, same⟩ :=
    covers_quic second
  obtain ⟨lead, behind⟩ := packed_lead (by simp [sender, receiver, senderToo, receiverToo, nonce.2,
    nonceToo.2]) (transcript_same same)
  simp only [List.cons.injEq] at lead
  simp only [packed, List.flatMap_append, List.flatMap_cons, List.flatMap_nil, List.append_nil,
    binding.2, other.2] at behind
  obtain ⟨_, last⟩ := List.append_inj' behind (by simp [binding.2, other.2])
  refine ⟨Subtype.ext (List.append_cancel_left last), ?_⟩
  have named : message.sender = another.sender :=
    String.toByteArray_inj.mp (ByteArray.ext (Array.toList_inj.mp lead.2.1))
  simp [Signed.key, named, parsedToo, read, readToo, Subtype.ext lead.2.2.2.1]

theorem covers_apart {context : TcpChallengeContext} {binding : ByteArr 32} {replay : QuicReplayV3}
    {another : Signed} (first : (Line.tcp context).covers external message = some bytes)
    (second : (Line.quic binding replay).covers external another = some bytes) : False := by
  obtain ⟨_, _, _, _, _, _, rfl⟩ := covers_tcp first
  obtain ⟨_, _, _, _, _, _, _, same⟩ := covers_quic second
  have short : (utf8 tcpProtocol).length < 256 ^ 4 ∧ (utf8 quicProtocol).length < 256 ^ 4 ∧
      utf8 tcpProtocol ≠ utf8 quicProtocol := by decide +kernel
  exact short.2.2 (packed_cons short.1 short.2.1 (transcript_same same)).1

end Transcripts

section Connections

variable {suite : Suite} {messages : List Signed} {message : Signed}

/-- What a connection has accepted, and what it remembers of it. -/
inductive Remembers : Link → List Signed → Line → Prop where
  | unused {random : ByteArr 32} {receiver : PeltIdentity} {deadline : Nat} :
      Remembers (.tcp random receiver deadline) []
        (.tcp ⟨hex random.val, receiver, deadline, false⟩)
  | used {random : ByteArr 32} {receiver : PeltIdentity} {deadline : Nat} {message : Signed}
      (challenged : message.challenge = some (hex random.val))
      (addressed : message.receiver = receiver.fingerprint) :
      Remembers (.tcp random receiver deadline) [message]
        (.tcp ⟨hex random.val, receiver, deadline, true⟩)
  | quic {binding : ByteArr 32} {messages : List Signed} {replay : QuicReplayV3}
      (keys : messages.map Signed.key = replay.reservations.map some)
      (distinct : replay.reservations.Nodup)
      (bounded : replay.reservations.length ≤ quicReservations) :
      Remembers (.quic binding) messages (.quic binding replay)

theorem Remembers.step {link : Link} {line next : Line}
    (remembers : Remembers link messages line) (passes : Passes suite line message next) :
    Remembers link (message :: messages) next ∧
      message.Verifies suite (link.line.covers suite.toExternal message) := by
  cases remembers with
  | unused =>
    cases passes with
    | tcp _ challenged addressed verifies => exact ⟨.used challenged addressed, verifies⟩
  | used =>
    cases passes with
    | tcp fresh => cases fresh
  | quic keys distinct bounded =>
    cases passes with
    | quic keyed room new verifies =>
      refine ⟨.quic ?_ (List.nodup_cons.mpr ⟨new, distinct⟩) room, verifies⟩
      rw [List.map_cons, keys, keyed, List.map_cons]

theorem run_remembers (links : Nat → Link) (arrivals : List Arrival) :
    let listening := run (Listening.step suite) (.start links) arrivals
    (∀ connection, Remembers (links connection) (listening.on connection) (listening.lines connection)) ∧
    ∀ entry ∈ listening.accepted, entry.2.Verifies suite ((links entry.1).line.covers suite.toExternal entry.2) := by
  refine run_invariant (fun listening : Listening => (∀ connection, Remembers
    (links connection) (listening.on connection) (listening.lines connection)) ∧
    ∀ entry ∈ listening.accepted, entry.2.Verifies suite ((links entry.1).line.covers suite.toExternal entry.2)) ?_
    ⟨?_, fun _ member => by cases member⟩ arrivals
  · intro listening arrival ⟨remembers, verified⟩
    unfold Listening.step
    cases passed : (listening.lines arrival.connection).pass suite arrival.daemon arrival.around arrival.message with
    | none => exact ⟨remembers, verified⟩
    | some line =>
      obtain ⟨now, verifies⟩ := (remembers arrival.connection).step (passes_of_pass passed)
      refine ⟨fun other => ?_, List.forall_mem_cons.mpr ⟨verifies, verified⟩⟩
      by_cases same : arrival.connection = other
      · subst same
        simpa [Listening.on] using now
      · simpa [Listening.on, same, Function.update_of_ne (Ne.symm same)] using remembers other
  · intro other
    cases linked : links other with
    | tcp random receiver deadline =>
      simp only [Listening.start, Listening.on, linked, Link.line]
      exact .unused
    | quic binding =>
      simp only [Listening.start, Listening.on, linked, Link.line]
      exact .quic rfl List.nodup_nil (Nat.zero_le _)

theorem unhex_hex {bytes value : ByteArr 32} (read : unhex 32 (hex bytes.val) = some value) : value = bytes := by
  have digits : ∀ code : Fin 256, lowerHexPair (Nat.digitChar (code / 16))
      (Nat.digitChar (code % 16)) = some (UInt8.ofNat code) := by decide +kernel
  simp only [unhex, bind_eq_some, hex, String.toList_ofList, readPairs_hexChars digits, Option.some.injEq] at read
  obtain ⟨_, _, _, rfl, fits⟩ := read
  exact Subtype.ext (sized_some fits).symm

/-- Nothing that is signed tells the two connections apart. -/
def Link.same : Link → Link → Prop
  | tcp random _ _, tcp other _ _ => random = other
  | quic binding, quic other => binding = other
  | _, _ => False

def Distinct (links : Nat → Link) (connections : List Nat) : Prop :=
  ∀ first ∈ connections, ∀ second ∈ connections, (links first).same (links second) → first = second

/-- Messages under one transcript came on one connection, which tells them apart. -/
theorem Remembers.covers_same {link linkToo : Link} {another : Signed} {others : List Signed} {line other : Line}
    {bytes : List UInt8} (remembers : Remembers link messages line) (remembersToo : Remembers linkToo others other)
    (accepted : message ∈ messages) (acceptedToo : another ∈ others)
    (covered : link.line.covers suite.toExternal message = some bytes)
    (coveredToo : linkToo.line.covers suite.toExternal another = some bytes) :
    link.same linkToo ∧ ¬ [message, another].Sublist messages := by
  cases remembers with
  | unused => cases accepted
  | used challenged =>
    cases List.mem_singleton.mp accepted
    cases remembersToo with
    | unused => cases acceptedToo
    | used again =>
      cases List.mem_singleton.mp acceptedToo
      have same := covers_tcp_same covered coveredToo
      obtain ⟨challenge, _, _, read, _⟩ := covers_tcp covered
      rw [read, again, Option.bind_some, eq_comm] at same
      rw [challenged, Option.bind_some] at read
      refine ⟨(unhex_hex read).symm.trans (unhex_hex same), fun twice => ?_⟩
      exact absurd twice.length_le (by simp)
    | quic => exact (covers_apart covered coveredToo).elim
  | quic keys distinct =>
    cases remembersToo with
    | unused => cases acceptedToo
    | used => exact (covers_apart coveredToo covered).elim
    | quic =>
      obtain ⟨bound, keyed⟩ := covers_quic_same covered coveredToo
      refine ⟨bound, fun twice => ?_⟩
      have once : (messages.map Signed.key).Nodup := by
        rw [keys]
        exact distinct.map (Option.some_injective _)
      have pair := once.sublist (twice.map Signed.key)
      rw [List.map_cons, List.map_cons, keyed] at pair
      simp at pair

end Connections

/-- Whatever arrives on the connections of a receiver, in any order: a QUIC
connection accepts no sender's nonce twice and 256 messages at most; a TCP connection
accepts one message at most, for its own challenge and to this receiver. What is
accepted was verified as signed for its connection; with challenges and channels that
differ, nothing so signed is accepted twice anywhere. -/
theorem signed_messages_are_accepted_once (suite : Suite) (links : Nat → Link) (arrivals : List Arrival) :
    let listening := run (Listening.step suite) (.start links) arrivals
    let covered (entry : Nat × Signed) := (links entry.1).line.covers suite.toExternal entry.2
    (∀ connection binding, links connection = .quic binding → (listening.on connection).Pairwise (fun later earlier =>
        ¬(later.sender = earlier.sender ∧ later.nonce = earlier.nonce)) ∧
      (listening.on connection).length ≤ 256) ∧
    (∀ connection random receiver deadline, links connection = .tcp random receiver deadline →
      (listening.on connection).length ≤ 1 ∧
      ∀ message ∈ listening.on connection, message.challenge = some (hex random.val) ∧
        message.receiver = receiver.fingerprint) ∧
    (∀ entry ∈ listening.accepted, entry.2.Verifies suite (covered entry)) ∧
    (Distinct links (listening.accepted.map Prod.fst) → (listening.accepted.map covered).Nodup) := by
  intro listening covered
  obtain ⟨remembers, verified⟩ : (∀ connection, Remembers (links connection)
      (listening.on connection) (listening.lines connection)) ∧
      ∀ entry ∈ listening.accepted, entry.2.Verifies suite (covered entry) :=
    run_remembers links arrivals
  refine ⟨fun connection binding linked => ?_, fun connection random receiver deadline linked => ?_,
    verified, fun distinct => ?_⟩
  · have kept := remembers connection
    rw [linked] at kept
    generalize listening.on connection = messages, listening.lines connection = line at kept ⊢
    cases kept with
    | quic keys distinct bounded =>
        have apart : (messages.map Signed.key).Nodup := by
          rw [keys]
          exact distinct.map (Option.some_injective _)
        refine ⟨(List.pairwise_map.mp apart).imp ?_, ?_⟩
        · intro later earlier different same
          refine different ?_
          simp only [Signed.key, same.1, same.2]
        · have counted := congrArg List.length keys
          rw [List.length_map, List.length_map] at counted
          rw [counted]
          exact bounded
  · have kept := remembers connection
    rw [linked] at kept
    generalize listening.on connection = messages, listening.lines connection = line at kept ⊢
    cases kept with
    | unused => simp
    | used challenged addressed => simp [challenged, addressed]
  · rw [List.Nodup, List.pairwise_map, List.pairwise_iff_forall_sublist]
    rintro ⟨first, message⟩ ⟨second, another⟩ found same
    have on (connection : Nat) (message : Signed) (member : (connection, message) ∈ listening.accepted) :
        connection ∈ listening.accepted.map Prod.fst ∧ message ∈ listening.on connection :=
      ⟨List.mem_map_of_mem member, List.mem_filterMap.mpr ⟨_, member, if_pos rfl⟩⟩
    have accepted : (first, message) ∈ listening.accepted := found.subset (by simp)
    have acceptedToo : (second, another) ∈ listening.accepted := found.subset (by simp)
    obtain ⟨bytes, _, signed, _⟩ := verified _ accepted
    obtain ⟨linked, once⟩ := (remembers first).covers_same (remembers second)
      (on _ _ accepted).2 (on _ _ acceptedToo).2 signed (same.symm.trans signed)
    obtain rfl := distinct first (on _ _ accepted).1 second (on _ _ acceptedToo).1 linked
    have twice := found.filterMap (fun entry => if entry.1 = first then some entry.2 else none)
    simp only [List.filterMap_cons, if_true, List.filterMap_nil] at twice
    exact once twice

namespace Sample

def ones : ByteArr 32 := ⟨List.replicate 32 1, List.length_replicate⟩

def links (connection : Nat) : Link :=
  .tcp (if connection = 0 then ByteArr.zero 32 else ones) ⟨keyText 0, keyText 0, fingerprintOf 0⟩ 1

def arriving (connection : Nat) (random : ByteArr 32) : Arrival :=
  ⟨connection, daemon [member 1 (some (keyText 1))], around, .tcpOpen { tcpOpen 1 with challenge := hex random.val }⟩

/-- The OPEN of the first connection arrives again there, and on the second. -/
def arrivals : List Arrival :=
  [arriving 0 (ByteArr.zero 32), arriving 0 (ByteArr.zero 32), arriving 1 (ByteArr.zero 32), arriving 1 ones]

end Sample

open Sample

theorem replayed_open_is_refused :
    (run (Listening.step suite) (.start links) arrivals).accepted.map Prod.fst = [1, 0] ∧
      ((run (Listening.step suite) (.start links) arrivals).accepted.map (fun entry =>
        (links entry.1).line.covers suite.toExternal entry.2)).Nodup := by
  have accepted : (run (Listening.step suite) (.start links) arrivals).accepted.map Prod.fst =
      [1, 0] := by decide +kernel
  have apart : ByteArr.zero 32 ≠ ones := by decide
  refine ⟨accepted, (signed_messages_are_accepted_once suite links arrivals).2.2.2 ?_⟩
  rw [accepted]
  simp [Distinct, Link.same, links, apart, apart.symm]

end Werewolf.Transport
