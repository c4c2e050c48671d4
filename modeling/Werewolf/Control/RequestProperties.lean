import Werewolf.Control.Request
import Werewolf.Library.Result

/-! What the control parser accepts. The scan of the bytes counts the nesting of every
JSON text as it is, strings and escapes included. -/

namespace Werewolf.Control
open Library Library.Json

section Scanning

variable {scan : Scan} {depth inner other : Nat} {text later : List Char} {char : Char}
  {byte : UInt8}

def scanText (scan : Scan) (text : List Char) : Option Scan :=
  (text.flatMap String.utf8EncodeChar).foldlM scanByte scan

abbrev between (depth : Nat) : Scan := ⟨depth, false, false⟩

def bounded (depth inner : Nat) : Option Scan :=
  if depth + inner ≤ maxDepth then some (between depth) else none

theorem scanText_append : scanText scan (text ++ later) = (scanText scan text).bind (scanText · later) := by
  simp [scanText, List.flatMap_append, List.foldlM_append, bind]

theorem scanText_cons (single : String.utf8EncodeChar char = [byte]) :
    scanText scan (char :: later) = (scanByte scan byte).bind (scanText · later) := by
  simp [scanText, single, bind]

theorem utf8_ne {ascii : Char} (different : char ≠ ascii) (small : ascii.toNat < 128)
    (listed : byte ∈ String.utf8EncodeChar char) : byte ≠ UInt8.ofNat ascii.toNat := by
  rintro rfl
  refine different (Char.toNat_inj.mp ?_)
  have value : char.toNat = char.val.toNat := rfl
  have unequal : ∀ code, 128 ≤ code % 256 → UInt8.ofNat ascii.toNat ≠ UInt8.ofNat code := by
    intro code large same
    have codes := congrArg UInt8.toNat same
    simp only [UInt8.toNat_ofNat'] at codes
    omega
  simp only [String.utf8EncodeChar] at listed
  split at listed
  · have codes := congrArg UInt8.toNat (List.mem_singleton.mp listed)
    simp only [UInt8.toNat_ofNat'] at codes
    omega
  split at listed
  · simp only [List.mem_cons, List.not_mem_nil, or_false] at listed
    rcases listed with same | same <;> exact absurd same (unequal _ (by omega))
  split at listed
  · simp only [List.mem_cons, List.not_mem_nil, or_false] at listed
    rcases listed with same | same | same <;> exact absurd same (unequal _ (by omega))
  · simp only [List.mem_cons, List.not_mem_nil, or_false] at listed
    rcases listed with same | same | same | same <;> exact absurd same (unequal _ (by omega))

theorem scanText_same (same : ∀ char ∈ text, ∀ byte ∈ String.utf8EncodeChar char, scanByte scan byte = some scan) :
    scanText scan text = some scan := by
  have bytes : ∀ list : List UInt8, (∀ byte ∈ list, scanByte scan byte = some scan) →
      list.foldlM scanByte scan = some scan := by
    intro list each
    induction list with
    | nil => rfl
    | cons byte list ih =>
      obtain ⟨first, rest⟩ := List.forall_mem_cons.mp each
      rw [List.foldlM_cons, first]
      exact ih rest
  refine bytes _ (fun byte listed => ?_)
  obtain ⟨char, within, listed⟩ := List.mem_flatMap.mp listed
  exact same char within byte listed

def Quiet (text : List Char) : Prop :=
  ∀ char ∈ text, char ∉ ['"', '\x7b', '[', '\x7d', ']']

theorem scanText_quiet (quiet : Quiet text) : scanText (between depth) text = some (between depth) := by
  refine scanText_same (fun char within byte listed => ?_)
  have other := quiet char within
  simp only [List.mem_cons, List.not_mem_nil, or_false, not_or] at other
  obtain ⟨quote, brace, bracket, closing, last⟩ := other
  have quote' : byte ≠ 0x22 := utf8_ne quote (by decide) listed
  have brace' : byte ≠ 0x7B := utf8_ne brace (by decide) listed
  have bracket' : byte ≠ 0x5B := utf8_ne bracket (by decide) listed
  have closing' : byte ≠ 0x7D := utf8_ne closing (by decide) listed
  have last' : byte ≠ 0x5D := utf8_ne last (by decide) listed
  simp [scanByte, quote', brace', bracket', closing', last']

theorem scanText_plain (plain : ∀ char ∈ text, char ≠ '"' ∧ char ≠ '\\') :
    scanText ⟨depth, true, false⟩ text = some ⟨depth, true, false⟩ := by
  refine scanText_same (fun char within byte listed => ?_)
  obtain ⟨quote, slash⟩ := plain char within
  have quote' : byte ≠ 0x22 := utf8_ne quote (by decide) listed
  have slash' : byte ≠ 0x5C := utf8_ne slash (by decide) listed
  simp [scanByte, quote', slash']

theorem codeUnit_plain {digits : List Char} {unit : Nat} (spells : CodeUnit digits unit) :
    ∀ char ∈ digits, char ≠ '"' ∧ char ≠ '\\' := by
  have each : ∀ (digits : List Char) (start unit : Nat),
      digits.foldlM (fun value digit => (hexValue digit).map (value * 16 + ·)) start = some unit →
        ∀ char ∈ digits, (hexValue char).isSome := by
    intro digits
    induction digits with
    | nil => simp
    | cons digit digits ih =>
      intro start unit folded
      rw [List.foldlM_cons] at folded
      obtain ⟨value, first, rest⟩ := Option.bind_eq_some_iff.mp folded
      refine List.forall_mem_cons.mpr ⟨?_, ih _ _ rest⟩
      rw [← Option.isSome_map, first]
      rfl
  intro char listed
  have hex := each digits 0 unit spells.2 char listed
  constructor
  · rintro rfl
    revert hex
    decide
  · rintro rfl
    revert hex
    decide

theorem scanText_escape (single : (String.utf8EncodeChar char).length = 1) :
    scanText ⟨depth, true, false⟩ ('\\' :: char :: text) = scanText ⟨depth, true, false⟩ text := by
  obtain ⟨byte, single⟩ := List.length_eq_one_iff.mp single
  rw [scanText_cons (by decide : String.utf8EncodeChar '\\' = [0x5C]), scanByte]
  simp [scanText_cons single, scanByte]

theorem scanText_quoted {chars : List Char} (quoted : Quoted chars text) :
    scanText ⟨depth, true, false⟩ text = some ⟨depth, true, false⟩ := by
  induction quoted with
  | nil => rfl
  | plain plain _ ih =>
    rw [← List.singleton_append, scanText_append, scanText_plain (by simpa using ⟨plain.1, plain.2.1⟩)]
    exact ih
  | short named _ ih =>
    have single : ∀ escape ∈ shortEscapes, (String.utf8EncodeChar escape.1).length = 1 := by decide
    rw [scanText_escape (single _ named), ih]
  | unit spells _ ih =>
    rw [List.cons_append, List.cons_append, scanText_escape (by decide), scanText_append,
      scanText_plain (codeUnit_plain spells)]
    exact ih
  | pair _ first second _ ih =>
    rw [List.append_assoc, List.cons_append, List.cons_append, scanText_escape (by decide),
      scanText_append, scanText_plain (codeUnit_plain first), List.cons_append, List.cons_append,
      Option.bind_some, scanText_escape (by decide), scanText_append,
      scanText_plain (codeUnit_plain second)]
    exact ih

theorem bounded_zero (room : depth ≤ maxDepth) : bounded depth 0 = some (between depth) := by
  rw [bounded, if_pos (by simpa using room)]

theorem scanText_literal {string : String} (literal : Literal string text) :
    scanText (between depth) text = some (between depth) := by
  obtain ⟨inside, quoted, rfl⟩ := literal
  rw [List.cons_append, scanText_cons (by decide : String.utf8EncodeChar '"' = [0x22]), scanByte]
  simp only [Bool.false_eq_true, if_false, if_true, Option.bind_some, scanText_append,
    scanText_quoted quoted, scanText_cons (by decide : String.utf8EncodeChar '"' = [0x22])]
  rfl

theorem scanText_seq (first : scanText (between depth) text = bounded depth inner)
    (second : scanText (between depth) later = bounded depth other) :
    scanText (between depth) (text ++ later) = bounded depth (max inner other) := by
  rw [scanText_append, first]
  unfold bounded at second ⊢
  by_cases fits : depth + inner ≤ maxDepth
  · rw [if_pos fits, Option.bind_some, second]
    by_cases too : depth + other ≤ maxDepth
    · rw [if_pos too, if_pos (by omega)]
    · rw [if_neg too, if_neg (by omega)]
  · rw [if_neg fits, if_neg (by omega)]
    rfl

theorem scanText_enclosed {opening closing : Char} (brackets : (opening, closing) ∈ [('\x7b', '\x7d'), ('[', ']')])
    (inside : depth + 1 ≤ maxDepth → scanText (between (depth + 1)) text = bounded (depth + 1) inner) :
    scanText (between depth) (opening :: text ++ [closing]) = bounded depth (inner + 1) := by
  have opens : scanText (between depth) [opening] =
      if depth + 1 > maxDepth then none else some (between (depth + 1)) := by
    simp only [List.mem_cons, Prod.mk.injEq, List.not_mem_nil, or_false] at brackets
    rcases brackets with ⟨rfl, _⟩ | ⟨rfl, _⟩
    · rw [scanText_cons (by decide : String.utf8EncodeChar '\x7b' = [0x7B]), scanByte]
      split <;> simp_all [scanText]
    · rw [scanText_cons (by decide : String.utf8EncodeChar '[' = [0x5B]), scanByte]
      split <;> simp_all [scanText]
  have closes : scanText (between (depth + 1)) [closing] = some (between depth) := by
    simp only [List.mem_cons, Prod.mk.injEq, List.not_mem_nil, or_false] at brackets
    rcases brackets with ⟨_, rfl⟩ | ⟨_, rfl⟩ <;> rfl
  rw [List.cons_append, ← List.singleton_append, scanText_append, opens, bounded]
  by_cases room : depth + 1 ≤ maxDepth
  · rw [if_neg (by omega), Option.bind_some, scanText_append, inside room, bounded]
    by_cases fits : depth + 1 + inner ≤ maxDepth
    · rw [if_pos fits, if_pos (by omega), Option.bind_some, closes]
    · rw [if_neg fits, if_neg (by omega)]
      rfl
  · rw [if_pos (by omega), if_neg (by omega)]
    rfl

theorem Quiet.append (first : Quiet text) (second : Quiet later) : Quiet (text ++ later) :=
  List.forall_mem_append.mpr ⟨first, second⟩

theorem quiet_of_forall {condition : Char → Prop} (holds : ∀ char ∈ text, condition char)
    (none : ¬ condition '"' ∧ ¬ condition '\x7b' ∧ ¬ condition '[' ∧ ¬ condition '\x7d' ∧
      ¬ condition ']') : Quiet text := by
  intro char listed other
  obtain ⟨quote, brace, bracket, closing, last⟩ := none
  have now := holds char listed
  simp only [List.mem_cons, List.not_mem_nil, or_false] at other
  rcases other with rfl | rfl | rfl | rfl | rfl <;> contradiction

theorem quiet_of_blank (blank : Blank text) : Quiet text := quiet_of_forall blank (by simp)

theorem quiet_of_digits (digits : Digits text) : Quiet text := quiet_of_forall digits.2 (by decide)

theorem quiet_of_number (number : Number text) : Quiet text := by
  obtain ⟨sign, integer, fraction, exponent, rfl, signed, whole, _, fractional, raised⟩ := number
  have marks {text : List Char} (listed : ∀ char ∈ text, char ∈ ['-', '+', '.', 'e', 'E']) :
      Quiet text := quiet_of_forall listed (by simp)
  refine (((marks ?_).append (quiet_of_digits whole)).append ?_).append ?_
  · simp only [List.mem_cons, List.not_mem_nil, or_false] at signed
    rcases signed with rfl | rfl <;> simp
  · rcases fractional with rfl | ⟨digits, spells, rfl⟩
    · exact marks (by simp)
    · exact (marks (by simp) : Quiet ['.']).append (quiet_of_digits spells)
  · rcases raised with rfl | ⟨letter, sign, digits, named, signed, spells, rfl⟩
    · exact marks (by simp)
    · refine (marks ?_ : Quiet (letter :: sign)).append (quiet_of_digits spells)
      simp only [List.mem_cons, List.not_mem_nil, or_false] at named signed
      rcases named with rfl | rfl <;> rcases signed with rfl | rfl | rfl <;> simp

theorem scanText_bounded (room : depth ≤ maxDepth) (quiet : Quiet text) :
    scanText (between depth) text = bounded depth 0 := by
  rw [scanText_quiet quiet, bounded_zero room]

theorem scanText_more {rest : Nat} (room : depth ≤ maxDepth)
    (more : text = [] ∧ rest = 0 ∨ ∃ later, text = ',' :: later ∧
      scanText (between depth) later = bounded depth rest) :
    scanText (between depth) text = bounded depth rest := by
  rcases more with ⟨rfl, rfl⟩ | ⟨later, rfl, scanned⟩
  · exact (bounded_zero room).symm
  · have comma : scanText (between depth) [','] = bounded depth 0 :=
      scanText_bounded room (by simp [Quiet])
    rw [← List.singleton_append, scanText_seq comma scanned, Nat.zero_max]

end Scanning

mutual

theorem scan_value : ∀ (value : Value) {text : List Char} {depth : Nat}, depth ≤ maxDepth →
    value.Writes text → scanText (between depth) text = bounded depth value.depth
  | .null, text, depth, room, writes => by
    rw [Value.Writes] at writes
    rw [writes, Value.depth]
    · exact scanText_bounded room (by simp [Quiet])
    all_goals simp
  | .bool value, text, depth, room, writes => by
    have quiet : Quiet text := by cases value <;> simp_all [Value.Writes, Quiet]
    rw [Value.depth]
    · exact scanText_bounded room quiet
    all_goals simp
  | .number token, text, depth, room, writes => by
    rw [Value.Writes] at writes
    rw [writes.2, Value.depth]
    · exact scanText_bounded room (quiet_of_number writes.1)
    all_goals simp
  | .string string, text, depth, room, writes => by
    rw [Value.Writes] at writes
    rw [scanText_literal writes, Value.depth, bounded_zero room]
    all_goals simp
  | .array items, text, depth, room, writes => by
    rw [Value.Writes] at writes
    obtain ⟨inside, written, rfl⟩ := writes
    rw [Value.depth]
    exact scanText_enclosed (by simp) (fun deeper => scan_items items deeper written)
  | .object members, text, depth, room, writes => by
    rw [Value.Writes] at writes
    obtain ⟨inside, written, rfl⟩ := writes
    rw [Value.depth]
    exact scanText_enclosed (by simp) (fun deeper => scan_members members deeper written)

theorem scan_items : ∀ (items : List Value) {text : List Char} {depth : Nat}, depth ≤ maxDepth →
    WritesItems items text → scanText (between depth) text = bounded depth (depthItems items)
  | [], text, depth, room, writes => by
    rw [WritesItems] at writes
    rw [depthItems]
    exact scanText_bounded room (quiet_of_blank writes)
  | item :: rest, text, depth, room, writes => by
    rw [WritesItems] at writes
    obtain ⟨before, body, after, more, blank, written, space, rfl, further⟩ := writes
    have following : scanText (between depth) more = bounded depth (depthItems rest) := by
      refine scanText_more room (further.imp ?_ ?_)
      · rintro ⟨rfl, rfl⟩
        exact ⟨rfl, rfl⟩
      · rintro ⟨_, later, rfl, others⟩
        exact ⟨later, rfl, scan_items rest room others⟩
    rw [scanText_seq (scanText_seq (scanText_seq (scanText_bounded room (quiet_of_blank blank))
      (scan_value item room written)) (scanText_bounded room (quiet_of_blank space))) following]
    simp [depthItems]

theorem scan_members : ∀ (members : List (String × Value)) {text : List Char} {depth : Nat},
    depth ≤ maxDepth → WritesMembers members text →
      scanText (between depth) text = bounded depth (depthMembers members)
  | [], text, depth, room, writes => by
    rw [WritesMembers] at writes
    rw [depthMembers]
    exact scanText_bounded room (quiet_of_blank writes)
  | (key, value) :: rest, text, depth, room, writes => by
    rw [WritesMembers] at writes
    obtain ⟨before, name, gap, space, body, after, more, blank, named, blank', blank'', written,
      ends, rfl, further⟩ := writes
    have following : scanText (between depth) more = bounded depth (depthMembers rest) := by
      refine scanText_more room (further.imp ?_ ?_)
      · rintro ⟨rfl, rfl⟩
        exact ⟨rfl, rfl⟩
      · rintro ⟨_, later, rfl, others⟩
        exact ⟨later, rfl, scan_members rest room others⟩
    have literal : scanText (between depth) name = bounded depth 0 := by
      rw [scanText_literal named, bounded_zero room]
    have blanks {text : List Char} (blank : Blank text) : scanText (between depth) text = bounded depth 0 :=
      scanText_bounded room (quiet_of_blank blank)
    have colon : scanText (between depth) [':'] = bounded depth 0 :=
      scanText_bounded room (by simp [Quiet])
    rw [scanText_seq (scanText_seq (scanText_seq (scanText_seq (scanText_seq (scanText_seq
      (scanText_seq (blanks blank) literal) (blanks blank')) colon) (blanks blank''))
      (scan_value value room written)) (blanks ends)) following]
    simp [depthMembers]

end

theorem scanDepth_iff {value : Value} {line : List UInt8} (document : Document value line) :
    (scanDepth line).isSome ↔ value.depth ≤ maxDepth := by
  obtain ⟨before, text, after, blank, writes, ends, rfl⟩ := document
  have room : 0 ≤ maxDepth := Nat.zero_le _
  have scanned := scanText_seq (scanText_seq (scanText_bounded room (quiet_of_blank blank))
    (scan_value value room writes)) (scanText_bounded room (quiet_of_blank ends))
  rw [Nat.zero_max, Nat.max_zero] at scanned
  change (scanText (between 0) _).isSome ↔ _
  rw [scanned, bounded, Nat.zero_add]
  split <;> simp_all

mutual

theorem unique_some : ∀ (value : Value) {out : Value}, unique value = some out → out = value ∧ value.Distinct
  | .array items, out, read => by
    rw [unique] at read
    obtain ⟨list, visited, rfl⟩ := Option.map_eq_some_iff.mp read
    obtain ⟨rfl, distinct⟩ := visitSeq_some items visited
    exact ⟨rfl, by rwa [Value.Distinct]⟩
  | .object members, out, read => by
    rw [unique] at read
    obtain ⟨list, visited, rfl⟩ := Option.map_eq_some_iff.mp read
    obtain ⟨rfl, distinct, each⟩ := visitMap_some members visited List.nodup_nil
    exact ⟨rfl, by rw [Value.Distinct]; exact ⟨distinct, each⟩⟩
  | .null, _, rfl => ⟨rfl, trivial⟩
  | .bool _, _, rfl => ⟨rfl, trivial⟩
  | .number _, _, rfl => ⟨rfl, trivial⟩
  | .string _, _, rfl => ⟨rfl, trivial⟩

theorem visitSeq_some : ∀ (items : List Value) {out : List Value}, visitSeq items = some out →
    out = items ∧ DistinctItems items
  | [], _, rfl => ⟨rfl, trivial⟩
  | item :: rest, out, read => by
    simp only [visitSeq, bind_eq_some, return_eq_some] at read
    obtain ⟨first, now, others, later, rfl⟩ := read
    obtain ⟨rfl, distinct⟩ := unique_some item now
    obtain ⟨rfl, each⟩ := visitSeq_some rest later
    exact ⟨rfl, distinct, each⟩

theorem visitMap_some : ∀ (members : List (String × Value)) {out final : List (String × Value)},
    visitMap out members = some final → (out.map (·.1)).Nodup →
      final = out ++ members ∧ (final.map (·.1)).Nodup ∧ DistinctMembers members
  | [], out, final, read, distinct => by
    cases read
    exact ⟨(List.append_nil _).symm, distinct, trivial⟩
  | (key, value) :: rest, out, final, read, distinct => by
    simp only [visitMap, Authority.require, bind_eq_some] at read
    obtain ⟨_, fresh, first, now, later⟩ := read
    simp only [Option.ite_none_right_eq_some, Bool.not_eq_true', List.any_eq_false, decide_eq_true_eq] at fresh
    obtain ⟨rfl, unrepeated⟩ := unique_some value now
    have names : ((out ++ [(key, first)]).map (·.1)).Nodup := by
      rw [List.map_append, List.nodup_append]
      refine ⟨distinct, by simp, ?_⟩
      intro name listed other same
      obtain ⟨member, within, rfl⟩ := List.mem_map.mp listed
      simp only [List.map_cons, List.map_nil, List.mem_singleton] at same
      exact fun equal => fresh.1 member within (equal.trans same)
    obtain ⟨rfl, distinct', each⟩ := visitMap_some rest later names
    exact ⟨by simp, distinct', unrepeated, each⟩

end

section Accepting

variable {members : List (String × Value)} {key : String} {value : Value}

theorem member?_some (found : member? key members = some value) : (key, value) ∈ members := by
  obtain ⟨⟨name, _⟩, within, rfl⟩ := Option.map_eq_some_iff.mp found
  have same : name = key := by simpa using List.find?_some within
  exact same ▸ List.mem_of_find?_eq_some within

theorem member?_of_distinct (distinct : (members.map (·.1)).Nodup)
    (listed : (key, value) ∈ members) : member? key members = some value := by
  induction members with
  | nil => cases listed
  | cons first rest ih =>
    obtain ⟨fresh, distinct⟩ := List.nodup_cons.mp distinct
    unfold member? at ih ⊢
    rcases List.mem_cons.mp listed with rfl | later
    · simp
    · rw [List.find?_cons_of_neg, ih distinct later]
      exact fun same => fresh (List.mem_map.mpr ⟨_, later, (of_decide_eq_true same).symm⟩)

theorem asText_some {text : String} (read : asText value = some text) : value = .string text := by
  cases value <;> cases read
  rfl

theorem asObject_some (read : asObject value = some members) : value = .object members := by
  cases value <;> cases read
  rfl

theorem texts_of_mapM {args : List (String × String)}
    (read : members.mapM (fun argument => (asText argument.2).map (argument.1, ·)) = some args) :
    members = args.map (fun argument => (argument.1, .string argument.2)) := by
  induction members generalizing args with
  | nil =>
    cases read
    rfl
  | cons first rest ih =>
    simp only [List.mapM_cons, bind_eq_some, return_eq_some] at read
    obtain ⟨argument, now, others, later, rfl⟩ := read
    obtain ⟨text, spelled, rfl⟩ := Option.map_eq_some_iff.mp now
    rw [List.map_cons, ← ih later, ← asText_some spelled]

structure Plainly (line : List UInt8) (request : ControlRequest)
    (members : List (String × Value)) : Prop where
  document : Document (.object members) line
  shallow : (Value.object members).depth ≤ 16
  distinct : (Value.object members).Distinct
  names : ∀ member ∈ members, member.1 ∈ ["id", "cmd", "args"]
  id : ("id", .string request.id) ∈ members
  cmd : ("cmd", .string request.cmd) ∈ members
  args : ∀ args, ("args", args) ∈ members →
    args = .object (request.args.map (fun argument => (argument.1, .string argument.2)))
  without : (∀ args, ("args", args) ∉ members) → request.args = []
  allowed : ∀ argument ∈ request.args, argument.1 ∈ allowedArguments request.cmd ∧
    byteLength argument.2 ≤ argumentLimit argument.1

theorem parse_plainly {fromSlice : List UInt8 → Option Value} {line : List UInt8} {request : ControlRequest}
    (reads : ∀ line value, fromSlice line = some value → Document value line)
    (accepted : parse fromSlice line = some request) : ∃ members, Plainly line request members := by
  simp only [parse, Authority.require, Option.bind_eq_bind, Option.bind_eq_some_iff, pure,
    Option.ite_none_right_eq_some, Option.some.injEq] at accepted
  obtain ⟨_, _, scan, scanned, value, ⟨raw, read, unrepeated⟩, members, object, _, ⟨names, _⟩, id,
    ⟨_, hasId, idText⟩, cmd, ⟨_, hasCmd, cmdText⟩, list, listed, args, texts, _, ⟨checked, _⟩,
    rfl⟩ := accepted
  obtain ⟨rfl, distinct⟩ := unique_some raw unrepeated
  cases asObject_some object
  cases asText_some idText
  cases asText_some cmdText
  have document := reads _ _ read
  have once := distinct
  rw [Value.Distinct] at once
  simp only [checkRequest, Bool.and_eq_true, List.all_eq_true, decide_eq_true_eq,
    List.contains_iff_mem] at checked names
  refine ⟨members, document, (scanDepth_iff document).mp (scanned ▸ rfl), distinct, names,
    member?_some hasId, member?_some hasCmd, fun value within => ?_, fun absent => ?_, checked.2⟩
  · rw [member?_of_distinct once.1 within, Option.getD_some] at listed
    rw [asObject_some listed, texts_of_mapM texts]
  · cases found : member? "args" members with
    | some value => exact absurd (member?_some found) (absent value)
    | none =>
      rw [found] at listed
      cases listed
      cases texts
      rfl

end Accepting

/-- With a JSON reader that reads only JSON, an accepted line is one object without
repeated names and with texts for arguments; and the scan of the bytes refuses exactly the
texts that are nested too deep. -/
theorem accepted_requests_are_plain (fromSlice : List UInt8 → Option Value)
    (reads : ∀ line value, fromSlice line = some value → Document value line) :
    (∀ line request, parse fromSlice line = some request → ∃ members, Plainly line request members) ∧
      ∀ value line, Document value line → ((scanDepth line).isSome ↔ value.depth ≤ 16) :=
  ⟨fun _ _ accepted => parse_plainly reads accepted, fun _ _ document => scanDepth_iff document⟩

namespace Sample

def removing : Value := .object [("id", .string "7"), ("cmd", .string "route.remove"),
  ("args", .object [("peer", .string "luna")])]

def removingText : List Char :=
  "\x7b\"id\":\"7\",\"cmd\":\"route.remove\", \"args\":\x7b\"peer\":\"luna\"\x7d\x7d\n".toList

def removingLine : List UInt8 := removingText.flatMap String.utf8EncodeChar

def readsRemoving (line : List UInt8) : Option Value :=
  if line = removingLine then some removing else none

theorem literal_plain (string : String) (plain : ∀ char ∈ string.toList, Plain char) :
    Literal string ('"' :: string.toList ++ ['"']) := by
  refine ⟨_, ?_, rfl⟩
  generalize string.toList = chars at plain
  induction chars with
  | nil => exact .nil
  | cons char chars ih =>
    obtain ⟨first, rest⟩ := List.forall_mem_cons.mp plain
    exact .plain first (ih rest)

theorem removing_document : Document removing removingLine := by
  have literal : ∀ string ∈ ["id", "7", "cmd", "route.remove", "args", "peer", "luna"],
      Literal string ('"' :: string.toList ++ ['"']) := by
    intro string listed
    refine literal_plain string ?_
    simp only [List.mem_cons, List.not_mem_nil, or_false] at listed
    rcases listed with rfl | rfl | rfl | rfl | rfl | rfl | rfl <;> simp [Plain]
  have blank : Blank [] := by simp [Blank]
  have args : WritesMembers [("peer", .string "luna")] "\"peer\":\"luna\"".toList :=
    ⟨[], _, [], [], _, [], [], blank, literal "peer" (by simp), blank, blank,
      literal "luna" (by simp), blank, by decide, .inl ⟨rfl, rfl⟩⟩
  have last : WritesMembers [("args", .object [("peer", .string "luna")])]
      " \"args\":\x7b\"peer\":\"luna\"\x7d".toList :=
    ⟨[' '], _, [], [], _, [], [], by simp [Blank], literal "args" (by simp), blank, blank,
      ⟨_, args, rfl⟩, blank, by decide, .inl ⟨rfl, rfl⟩⟩
  have second : WritesMembers [("cmd", .string "route.remove"),
      ("args", .object [("peer", .string "luna")])]
      "\"cmd\":\"route.remove\", \"args\":\x7b\"peer\":\"luna\"\x7d".toList :=
    ⟨[], _, [], [], _, [], _, blank, literal "cmd" (by simp), blank, blank,
      literal "route.remove" (by simp), blank, by decide, .inr ⟨by simp, _, rfl, last⟩⟩
  exact ⟨[], removingText.dropLast, ['\n'], blank, ⟨_, ⟨[], _, [], [], _, [], _, blank,
    literal "id" (by simp), blank, blank, literal "7" (by simp), blank, rfl,
    .inr ⟨by simp, _, rfl, second⟩⟩, by decide⟩, by simp [Blank], by decide⟩

theorem removing_accepted :
    parse readsRemoving removingLine = some ⟨"7", "route.remove", [("peer", "luna")]⟩ ∧
      ∃ members, Plainly removingLine ⟨"7", "route.remove", [("peer", "luna")]⟩ members := by
  have accepted :
      parse readsRemoving removingLine = some ⟨"7", "route.remove", [("peer", "luna")]⟩ := by
    decide +kernel
  refine ⟨accepted, (accepted_requests_are_plain readsRemoving ?_).1 _ _ accepted⟩
  intro line value read
  unfold readsRemoving at read
  split at read
  · rename_i same
    cases read
    rw [same]
    exact removing_document
  · cases read

end Sample

end Werewolf.Control
