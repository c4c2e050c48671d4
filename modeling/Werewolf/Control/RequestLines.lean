import Werewolf.Control.Limits

/-! The lines of the control socket. The bytes come in chunks, as the reader has them;
what is read depends on the bytes alone. -/

namespace Werewolf.Control

def lineFeed : UInt8 := 0x0A

/-- What `fill_buf` shows: at least one byte, unless the stream has ended. -/
abbrev Chunk := { bytes : List UInt8 // bytes ≠ [] }

def stream (reader : List Chunk) : List UInt8 := reader.flatMap (·.val)

inductive Read where
  | line (bytes : List UInt8)
  | closed
  | rejected
  deriving DecidableEq

def lineEnd (bytes : List UInt8) : Nat :=
  match bytes.findIdx? (· = lineFeed) with
  | some index => index + 1
  | none => bytes.length

def consume (count : Nat) (chunk : Chunk) (rest : List Chunk) : List Chunk :=
  if left : chunk.val.drop count = [] then rest else ⟨chunk.val.drop count, left⟩ :: rest

def readBefore (line : List UInt8) : List Chunk → Read × List Chunk
  | [] => (if line.isEmpty then .closed else .rejected, [])
  | chunk :: rest =>
      let count := lineEnd chunk.val
      if line.length + count > requestBytes then (.rejected, chunk :: rest)
      else
        let line := line ++ chunk.val.take count
        if line.getLast? = some lineFeed then (.line line, consume count chunk rest)
        else if line.length = requestBytes then (.rejected, consume count chunk rest)
        -- without a line feed the chunk is consumed as a whole
        else readBefore line rest

section Reading

variable {bytes body after line : List UInt8} {reader rest : List Chunk}

@[simp] theorem stream_nil : stream [] = [] := rfl

@[simp] theorem stream_cons (chunk : Chunk) : stream (chunk :: rest) = chunk.val ++ stream rest := rfl

theorem lineEnd_of_notMem (absent : lineFeed ∉ bytes) : lineEnd bytes = bytes.length := by
  have none : bytes.findIdx? (· = lineFeed) = none := by
    rw [List.findIdx?_eq_none_iff]
    intro byte listed
    exact decide_eq_false (fun same => absent (same ▸ listed))
  rw [lineEnd, none]

theorem lineEnd_append (absent : lineFeed ∉ body) : lineEnd (body ++ lineFeed :: after) = body.length + 1 := by
  have found : (body ++ lineFeed :: after).findIdx? (· = lineFeed) = some body.length := by
    rw [List.findIdx?_append, List.findIdx?_eq_none_iff.mpr, List.findIdx?_cons]
    · simp
    · intro byte listed
      exact decide_eq_false (fun same => absent (same ▸ listed))
  rw [lineEnd, found]

theorem stream_consume (chunk : Chunk) (count : Nat) :
    stream (consume count chunk rest) = chunk.val.drop count ++ stream rest := by
  unfold consume
  split
  · rename_i empty
    rw [empty, List.nil_append]
  · rfl

theorem append_split {first later : List UInt8} (absent : lineFeed ∉ first)
    (same : first ++ later = body ++ lineFeed :: after) :
    ∃ more, body = first ++ more ∧ later = more ++ lineFeed :: after := by
  rcases List.append_eq_append_iff.mp same with ⟨more, whole, rest⟩ | ⟨more, whole, rest⟩
  · exact ⟨more, whole, rest⟩
  · cases more with
    | nil => exact ⟨[], by simpa using whole.symm, by simpa using rest.symm⟩
    | cons byte more =>
      obtain ⟨rfl, _⟩ := List.cons.inj rest
      exact absurd (by simp [whole]) absent

theorem line_unique {first later : List UInt8} (fresh : lineFeed ∉ first)
    (absent : lineFeed ∉ body) (same : first ++ lineFeed :: later = body ++ lineFeed :: after) :
    first = body ∧ later = after := by
  obtain ⟨more, rfl, rest⟩ := append_split fresh same
  cases more with
  | nil => exact ⟨(List.append_nil _).symm, (List.cons.inj rest).2⟩
  | cons byte more =>
    obtain ⟨rfl, _⟩ := List.cons.inj rest
    exact absurd (by simp) absent

private theorem getLast_of_notMem {chunk : Chunk} (absent : lineFeed ∉ chunk.val) :
    (line ++ chunk.val).getLast? ≠ some lineFeed := by
  rw [List.getLast?_append_of_ne_nil _ chunk.property]
  exact fun last => absent (List.mem_of_getLast? last)

theorem readBefore_line (whole : stream reader = body ++ lineFeed :: after) (absent : lineFeed ∉ body) :
    if line.length + body.length < requestBytes then
      (readBefore line reader).1 = .line (line ++ (body ++ [lineFeed])) ∧ stream (readBefore line reader).2 = after
    else (readBefore line reader).1 = .rejected := by
  induction reader generalizing line body with
  | nil => simp at whole
  | cons chunk rest ih =>
    rw [stream_cons] at whole
    by_cases ends : lineFeed ∈ chunk.val
    · obtain ⟨first, more, split, fresh⟩ := List.eq_append_cons_of_mem ends
      rw [split, List.append_assoc, List.cons_append] at whole
      obtain ⟨rfl, rfl⟩ := line_unique fresh absent whole
      have count : lineEnd chunk.val = first.length + 1 := by rw [split, lineEnd_append fresh]
      have taken : chunk.val.take (first.length + 1) = first ++ [lineFeed] := by
        rw [split, List.take_append]
        simp
      have left : chunk.val.drop (first.length + 1) = more := by
        rw [split, List.drop_append]
        simp
      simp only [readBefore, count, taken]
      split
      · rw [if_neg (by omega), if_pos (by simp)]
        exact ⟨rfl, by rw [stream_consume, left]⟩
      · rw [if_pos (by omega)]
    · obtain ⟨more, rfl, later⟩ := append_split ends whole
      have count := lineEnd_of_notMem ends
      simp only [readBefore, count, List.take_length, List.length_append, if_neg (getLast_of_notMem ends)]
      have next := @ih more (line ++ chunk.val) later (fun listed => absent (List.mem_append_right _ listed))
      simp only [List.length_append, List.append_assoc] at next ⊢
      split
      · rename_i fits
        rw [if_neg (by omega), if_neg (by omega)]
        rwa [if_pos (by omega)] at next
      · rename_i long
        split
        · rfl
        split
        · rfl
        · rwa [if_neg (by omega)] at next

theorem readBefore_end (absent : lineFeed ∉ stream reader) :
    (readBefore line reader).1 = if line ++ stream reader = [] then .closed else .rejected := by
  induction reader generalizing line with
  | nil => simp [readBefore]
  | cons chunk rest ih =>
    rw [stream_cons, List.mem_append, not_or] at absent
    simp only [readBefore, lineEnd_of_notMem absent.1, List.take_length, if_neg (getLast_of_notMem absent.1)]
    have some : line ++ stream (chunk :: rest) ≠ [] := by simp [chunk.property]
    have later : (line ++ chunk.val) ++ stream rest ≠ [] := by simp [chunk.property]
    rw [if_neg some]
    split
    · rfl
    split
    · rfl
    · rw [ih absent.2, if_neg later]

theorem readBefore_reads (read : readBefore [] reader = (.line line, rest)) :
    stream reader = line ++ stream rest ∧ ∃ body, line = body ++ [lineFeed] ∧ lineFeed ∉ body := by
  by_cases ends : lineFeed ∈ stream reader
  · obtain ⟨body, after, whole, absent⟩ := List.eq_append_cons_of_mem ends
    have spec := @readBefore_line body after [] reader whole absent
    rw [read] at spec
    split at spec
    · obtain ⟨same, later⟩ := spec
      cases same
      exact ⟨by rw [whole, later]; simp, body, rfl, absent⟩
    · cases spec
  · have spec := @readBefore_end [] reader ends
    rw [read] at spec
    split at spec <;> cases spec

theorem readBefore_shorter (read : readBefore [] reader = (.line line, rest)) :
    (stream rest).length < (stream reader).length := by
  obtain ⟨whole, body, rfl, _⟩ := readBefore_reads read
  simp only [whole, List.length_append, List.length_singleton]
  omega

end Reading

def readLines (reader : List Chunk) : List (List UInt8) × Bool :=
  match _ : readBefore [] reader with
  | (.line line, rest) =>
      let (lines, failed) := readLines rest
      (line :: lines, failed)
  | (.closed, _) => ([], false)
  | (.rejected, _) => ([], true)
termination_by (stream reader).length
decreasing_by exact readBefore_shorter (by assumption)

/-- A stream as its lines, each with its one line feed at its end, and the bytes behind
the last of them. -/
structure Framed (lines : List (List UInt8)) (tail bytes : List UInt8) : Prop where
  whole : bytes = lines.flatten ++ tail
  lines : ∀ line ∈ lines, ∃ body, line = body ++ [lineFeed] ∧ lineFeed ∉ body
  tail : lineFeed ∉ tail

theorem framed_exists (bytes : List UInt8) : ∃ lines tail, Framed lines tail bytes := by
  induction bytes with
  | nil => exact ⟨[], [], rfl, by simp, by simp⟩
  | cons byte bytes ih =>
    obtain ⟨lines, tail, rfl, each, absent⟩ := ih
    by_cases ends : byte = lineFeed
    · refine ⟨[lineFeed] :: lines, tail, by simp [ends], ?_, absent⟩
      exact List.forall_mem_cons.mpr ⟨⟨[], rfl, by simp⟩, each⟩
    · cases lines with
      | nil => exact ⟨[], byte :: tail, by simp, by simp, by simp [Ne.symm ends, absent]⟩
      | cons line lines =>
        refine ⟨(byte :: line) :: lines, tail, by simp, ?_, absent⟩
        obtain ⟨⟨body, rfl, fresh⟩, later⟩ := List.forall_mem_cons.mp each
        exact List.forall_mem_cons.mpr ⟨⟨byte :: body, rfl, by simp [Ne.symm ends, fresh]⟩, later⟩

theorem readLines_eq (reader : List Chunk) : readLines reader =
    match readBefore [] reader with
    | (.line line, rest) => (line :: (readLines rest).1, (readLines rest).2)
    | (.closed, _) => ([], false)
    | (.rejected, _) => ([], true) := by
  rw [readLines]
  split <;> simp only [*]

theorem readLines_framed {lines : List (List UInt8)} {tail : List UInt8} {reader : List Chunk}
    (framed : Framed lines tail (stream reader)) :
    readLines reader = (lines.takeWhile (fun line => line.length ≤ requestBytes),
      !(lines.all (fun line => line.length ≤ requestBytes) && tail.isEmpty)) := by
  obtain ⟨whole, each, absent⟩ := framed
  rw [readLines_eq]
  induction lines generalizing reader with
  | nil =>
    have spec := @readBefore_end [] reader (by simpa [whole] using absent)
    simp only [List.nil_append, List.flatten_nil] at spec whole
    generalize readBefore [] reader = result at spec ⊢
    obtain ⟨reading, rest⟩ := result
    cases tail <;> simp_all
  | cons line lines ih =>
    obtain ⟨⟨body, rfl, fresh⟩, later⟩ := List.forall_mem_cons.mp each
    have spec := @readBefore_line body (lines.flatten ++ tail) [] reader (by simpa using whole) fresh
    generalize readBefore [] reader = result at spec ⊢
    obtain ⟨reading, rest⟩ := result
    by_cases fits : body.length < requestBytes
    · rw [if_pos (by simpa using fits)] at spec
      have short : (body ++ [lineFeed]).length ≤ requestBytes := by simpa using fits
      obtain ⟨rfl, after⟩ := spec
      simp only [readLines_eq rest, ih after later, List.takeWhile_cons, List.all_cons, decide_eq_true short, Bool.true_and]
      rfl
    · rw [if_neg (by simpa using fits)] at spec
      have long : ¬ (body ++ [lineFeed]).length ≤ requestBytes := by simpa using fits
      cases spec
      rw [List.takeWhile_cons_of_neg (by simpa using fits), List.all_cons, decide_eq_false long, Bool.false_and]
      rfl

/-- Whatever the chunks are, a client is read line by line up to the first line that is
too long. Reading fails at such a line, or at bytes that no line feed ends, and a line takes
nothing from what follows it. -/
theorem lines_do_not_depend_on_chunks (reader : List Chunk) : (∃ lines tail, Framed lines tail (stream reader)) ∧
      (∀ lines tail, Framed lines tail (stream reader) →
        readLines reader = (lines.takeWhile (fun line => line.length ≤ 16384),
          !(lines.all (fun line => line.length ≤ 16384) && tail.isEmpty))) ∧
      ∀ line rest, readBefore [] reader = (.line line, rest) → stream reader = line ++ stream rest ∧
          ∃ body, line = body ++ [lineFeed] ∧ lineFeed ∉ body :=
  ⟨framed_exists (stream reader), fun _ _ framed => readLines_framed framed,
    fun _ _ read => readBefore_reads read⟩

end Werewolf.Control
