import Werewolf.Library.Bytes
import Werewolf.Library.Result

/-! Readers that consume bytes from the front. A reader inverts an encoder when
whatever it accepts starts with the encoding of the value it returns. -/

namespace Werewolf.Library

abbrev Reader (ε : Type) := StateT (List UInt8) (Except ε)

namespace Reader

variable {ε α β : Type} {bytes rest : List UInt8}

def take (error : ε) (size : Nat) : Reader ε (ByteArr size) := fun bytes =>
  if enough : size ≤ bytes.length then
    .ok (⟨bytes.take size, List.length_take_of_le enough⟩, bytes.drop size)
  else .error error

def byte (error : ε) : Reader ε UInt8
  | [] => .error error
  | first :: rest => .ok (first, rest)

def number (error : ε) (width : Nat) : Reader ε Nat := do
  let digits ← take error width
  return beValue digits.val

def repeated (reader : Reader ε α) : Nat → Reader ε (List α)
  | 0 => pure []
  | count + 1 => do
      let first ← reader
      let rest ← repeated reader count
      return first :: rest

def finished (error : ε) : Reader ε Unit := fun bytes =>
  if bytes.isEmpty then .ok ((), bytes) else .error error

def lift (result : Except ε α) : Reader ε α := fun bytes => result.map (·, bytes)

def Inverts (reader : Reader ε α) (encode : α → List UInt8) : Prop :=
  ∀ bytes value rest, reader bytes = .ok (value, rest) → bytes = encode value ++ rest

theorem bind_ok_iff {reader : Reader ε α} {next : α → Reader ε β} {result : β} :
    (reader >>= next) bytes = .ok (result, rest) ↔ ∃ value middle, reader bytes = .ok (value, middle) ∧
        next value middle = .ok (result, rest) := by
  change (reader bytes >>= fun read => next read.1 read.2) = _ ↔ _
  rw [bind_eq_ok]
  exact ⟨fun ⟨⟨value, middle⟩, read, continued⟩ => ⟨value, middle, read, continued⟩,
    fun ⟨value, middle, read, continued⟩ => ⟨(value, middle), read, continued⟩⟩

theorem pure_ok_iff {value result : α} :
    (pure value : Reader ε α) bytes = .ok (result, rest) ↔ value = result ∧ bytes = rest := by
  change Except.ok (value, bytes) = _ ↔ _
  rw [Except.ok.injEq, Prod.mk.injEq]

theorem lift_ok_iff {found : Except ε α} {result : α} :
    lift found bytes = .ok (result, rest) ↔ found = .ok result ∧ bytes = rest := by
  cases found with
  | error error => simp [lift, Except.map]
  | ok value => simp [lift, Except.map]

theorem take_inverts (error : ε) (size : Nat) : (take error size).Inverts Subtype.val := by
  intro bytes value rest read
  simp only [take] at read
  split at read
  · cases read
    exact (List.take_append_drop size bytes).symm
  · cases read

theorem byte_inverts (error : ε) : (byte error).Inverts (fun value => [value]) := by
  intro bytes value rest read
  cases bytes with
  | nil => cases read
  | cons first others =>
    cases read
    rfl

theorem number_inverts (error : ε) (width : Nat) : (number error width).Inverts (beBytes width) := by
  intro bytes value rest read
  simp only [number, bind_ok_iff, pure_ok_iff] at read
  obtain ⟨digits, middle, taken, rfl, rfl⟩ := read
  rw [take_inverts error width _ _ _ taken, beBytes_beValue digits.property]

theorem number_lt {error : ε} {width value : Nat}
    (read : number error width bytes = .ok (value, rest)) : value < 256 ^ width := by
  simp only [number, bind_ok_iff, pure_ok_iff] at read
  obtain ⟨digits, middle, _, rfl, rfl⟩ := read
  have bound := beValue_lt digits.val
  rwa [digits.property] at bound

theorem repeated_inverts {reader : Reader ε α} {encode : α → List UInt8} (inverts : reader.Inverts encode)
    {count : Nat} {values : List α} (read : repeated reader count bytes = .ok (values, rest)) :
    bytes = values.flatMap encode ++ rest ∧ values.length = count := by
  induction count generalizing bytes values with
  | zero =>
    simp only [repeated, pure_ok_iff] at read
    obtain ⟨rfl, rfl⟩ := read
    exact ⟨rfl, rfl⟩
  | succ count ih =>
    simp only [repeated, bind_ok_iff, pure_ok_iff] at read
    obtain ⟨first, middle, head, others, last, tail, rfl, rfl⟩ := read
    obtain ⟨split, length⟩ := ih tail
    rw [inverts _ _ _ head, split, List.flatMap_cons, List.append_assoc, List.length_cons, length]
    exact ⟨rfl, rfl⟩

section Reading

def Reads (reader : Reader ε α) (encoding : List UInt8) (value : α) : Prop :=
  ∀ rest, reader (encoding ++ rest) = .ok (value, rest)

theorem reads_bind {reader : Reader ε α} {next : α → Reader ε β} {first second : List UInt8}
    {value : α} {result : β} (front : reader.Reads first value)
    (back : (next value).Reads second result) : (reader >>= next).Reads (first ++ second) result := by
  intro rest
  rw [List.append_assoc]
  exact bind_ok_iff.mpr ⟨value, _, front _, back rest⟩

theorem reads_pure (value : α) : (pure value : Reader ε α).Reads [] value :=
  fun _ => rfl

theorem reads_map {reader : Reader ε α} (shape : α → β) {encoding : List UInt8} {value : α}
    (front : reader.Reads encoding value) :
    (reader >>= fun found => pure (shape found)).Reads encoding (shape value) :=
  fun rest => bind_ok_iff.mpr ⟨value, rest, front rest, rfl⟩

theorem take_reads (error : ε) {size : Nat} (value : ByteArr size) : (take error size).Reads value.val value := by
  obtain ⟨bytes, rfl⟩ := value
  intro rest
  simp only [take, List.length_append, Nat.le_add_right, ↓reduceDIte, List.take_left, List.drop_left]

theorem byte_reads (error : ε) (value : UInt8) : (byte error).Reads [value] value :=
  fun _ => rfl

theorem number_reads (error : ε) {width value : Nat} (small : value < 256 ^ width) :
    (number error width).Reads (beBytes width value) value := by
  have digits := take_reads error ⟨beBytes width value, length_beBytes width value⟩
  have shaped := reads_map (fun digits : ByteArr width => beValue digits.val) digits
  rwa [beValue_beBytes, Nat.mod_eq_of_lt small] at shaped

theorem repeated_reads {reader : Reader ε α} {encode : α → List UInt8} (values : List α)
    (reads : ∀ value ∈ values, reader.Reads (encode value) value) :
    (repeated reader values.length).Reads (values.flatMap encode) values := by
  induction values with
  | nil => exact reads_pure []
  | cons value values ih =>
    have tail := ih (fun other member => reads other (List.mem_cons_of_mem _ member))
    exact reads_bind (reads value (List.mem_cons_self ..)) (reads_map (value :: ·) tail)

theorem lift_reads {found : Except ε α} {value : α} (result : found = .ok value) : (lift found).Reads [] value := by
  intro rest
  rw [result]
  rfl

end Reading

section Texts

variable {bytes rest : List UInt8}

/-- The length of a text as a `u16`, in front of the text. The length of one that is
longer wraps around. -/
def prefixedText (text : String) : List UInt8 :=
  beBytes 2 text.utf8ByteSize ++ text.toUTF8.data.toList

def text (short long invalid : ε) (limit : Nat) : Reader ε String := do
  let length ← number short 2
  if limit < length then lift (.error long)
  else
    let bytes ← take short length
    match String.fromUTF8? ⟨bytes.val.toArray⟩ with
    | none => lift (.error invalid)
    | some text => pure text

theorem fromUTF8?_toUTF8 (text : String) : String.fromUTF8? ⟨text.toUTF8.data.toList.toArray⟩ = some text := by
  rw [Array.toArray_toList]
  exact dif_pos text.isValidUTF8

theorem toUTF8_of_fromUTF8? {text : String} (read : String.fromUTF8? ⟨bytes.toArray⟩ = some text) :
    text.toUTF8.data.toList = bytes := by
  unfold String.fromUTF8? at read
  split at read
  · cases read
    rfl
  · cases read

theorem length_toUTF8 (text : String) : text.toUTF8.data.toList.length = text.utf8ByteSize := rfl

theorem length_prefixedText (text : String) : (prefixedText text).length = 2 + text.utf8ByteSize := by
  rw [prefixedText, List.length_append, length_beBytes, length_toUTF8]

variable {short long invalid : ε} {limit : Nat}

theorem text_reads {content : String} (fits : content.utf8ByteSize ≤ limit) (word : limit < 2 ^ 16) :
    (text short long invalid limit).Reads (prefixedText content) content := by
  refine reads_bind (number_reads _ (show content.utf8ByteSize < 256 ^ 2 by omega)) ?_
  rw [if_neg (Nat.not_lt.mpr fits)]
  have taken := take_reads short (⟨content.toUTF8.data.toList, length_toUTF8 content⟩ : ByteArr content.utf8ByteSize)
  rw [← List.append_nil content.toUTF8.data.toList]
  refine reads_bind taken ?_
  simp only [fromUTF8?_toUTF8]
  exact reads_pure content

theorem text_ok {content : String} (read : text short long invalid limit bytes = .ok (content, rest)) :
    bytes = prefixedText content ++ rest ∧ content.utf8ByteSize ≤ limit := by
  obtain ⟨length, middle, counted, continued⟩ := bind_ok_iff.mp read
  split at continued
  · obtain ⟨refused, _⟩ := lift_ok_iff.mp continued
    cases refused
  · rename_i within
    obtain ⟨digits, last, taken, shaped⟩ := bind_ok_iff.mp continued
    cases decoded : String.fromUTF8? ⟨digits.val.toArray⟩ with
    | none =>
      simp only [decoded] at shaped
      obtain ⟨refused, _⟩ := lift_ok_iff.mp shaped
      cases refused
    | some found =>
      simp only [decoded] at shaped
      obtain ⟨rfl, rfl⟩ := pure_ok_iff.mp shaped
      have spelled := toUTF8_of_fromUTF8? decoded
      have sized : found.utf8ByteSize = length := by
        rw [← length_toUTF8, spelled, digits.2]
      refine ⟨?_, by omega⟩
      rw [number_inverts _ _ _ _ _ counted, take_inverts _ _ _ _ _ taken, prefixedText, sized,
        spelled, List.append_assoc]

theorem text_inverts : (text short long invalid limit).Inverts prefixedText :=
  fun _ _ _ read => (text_ok read).1

theorem repeated_text_ok {count : Nat} {contents : List String}
    (read : repeated (text short long invalid limit) count bytes = .ok (contents, rest)) :
    ∀ content ∈ contents, content.utf8ByteSize ≤ limit := by
  induction count generalizing bytes contents with
  | zero =>
    simp only [repeated, pure_ok_iff] at read
    obtain ⟨rfl, _⟩ := read
    exact fun _ member => (nomatch member)
  | succ count ih =>
    simp only [repeated, bind_ok_iff, pure_ok_iff] at read
    obtain ⟨first, middle, head, others, last, tail, rfl, rfl⟩ := read
    exact List.forall_mem_cons.mpr ⟨(text_ok head).2, ih tail⟩

/-- Texts of less than 64 KiB are told apart by their encodings, also from longer
ones. -/
theorem prefixedTexts_injective {contents others : List String} {otherRest : List UInt8}
    (fits : (contents.flatMap prefixedText ++ rest).length < 2 ^ 16) (sized : rest.length = otherRest.length)
    (same : contents.flatMap prefixedText ++ rest = others.flatMap prefixedText ++ otherRest) :
    contents = others ∧ rest = otherRest := by
  induction contents generalizing others with
  | nil =>
    cases others with
    | nil => exact ⟨rfl, same⟩
    | cons other others =>
      have lengths := congrArg List.length same
      simp only [List.flatMap_nil, List.nil_append, List.flatMap_cons, List.length_append,
        length_prefixedText] at lengths
      omega
  | cons content contents ih =>
    cases others with
    | nil =>
      have lengths := congrArg List.length same
      simp only [List.flatMap_nil, List.nil_append, List.flatMap_cons, List.length_append,
        length_prefixedText] at lengths
      omega
    | cons other others =>
      have otherFits := fits
      rw [same] at otherFits
      simp only [List.flatMap_cons, List.append_assoc, prefixedText, List.length_append,
        length_beBytes, length_toUTF8] at same fits otherFits
      obtain ⟨lengths, same⟩ := List.append_inj same (by simp)
      have sizes := beBytes_injective (by omega) (by omega) lengths
      obtain ⟨texts, same⟩ := List.append_inj same (by rw [length_toUTF8, length_toUTF8, sizes])
      obtain ⟨later, rests⟩ := ih (by simp only [List.length_append]; omega) same
      have alike : some content = some other := by
        rw [← fromUTF8?_toUTF8 content, ← fromUTF8?_toUTF8 other, texts]
      exact ⟨by rw [Option.some.inj alike, later], rests⟩

end Texts

theorem finished_ok {error : ε} {result : Unit} (read : finished error bytes = .ok (result, rest)) : bytes = [] := by
  simp only [finished] at read
  split at read
  · rename_i empty
    exact List.isEmpty_iff.mp empty
  · cases read

end Reader

end Werewolf.Library
