import Mathlib.Data.Nat.Digits.Lemmas
import Werewolf.Library.Codec

/-! Compact JSON: numbers, strings, arrays and records as codecs, and their
UTF-8 bytes. -/

namespace Werewolf.Library.Json

variable {α β : Type} {follows : List Char → Prop}

def Delimited (rest : List Char) : Prop := ∀ char ∈ rest.head?, char.isDigit = false

def number : Codec Nat where
  print value :=
    if value = 0 then ['0'] else ((Nat.digits 10 value).map Nat.digitChar).reverse
  parse text :=
    match text.takeWhile Char.isDigit with
    | [] => none
    | digits =>
        some (Nat.ofDigits 10 (digits.reverse.map (fun char => char.toNat - 48)), text.dropWhile Char.isDigit)

private theorem digitChar_digit {digit : Nat} (small : digit < 10) :
    (Nat.digitChar digit).isDigit = true ∧ (Nat.digitChar digit).toNat - 48 = digit := by
  decide +revert

theorem number_lawful : number.Lawful Delimited := by
  intro value rest delimited
  have ends : rest.takeWhile Char.isDigit = [] ∧ rest.dropWhile Char.isDigit = rest := by
    cases rest with
    | nil => simp
    | cons char rest => simp [delimited char rfl]
  by_cases zero : value = 0
  · subst zero
    simp [number, ends]
  · have digit : ∀ char ∈ ((Nat.digits 10 value).map Nat.digitChar).reverse, char.isDigit = true := by
      simp only [List.mem_reverse, List.mem_map, forall_exists_index, and_imp]
      rintro _ digit member rfl
      exact (digitChar_digit (Nat.digits_lt_base (by decide) member)).1
    have values : ((Nat.digits 10 value).map Nat.digitChar).map (fun char => char.toNat - 48) =
        Nat.digits 10 value := by
      rw [List.map_map]
      conv_rhs => rw [← List.map_id (Nat.digits 10 value)]
      refine List.map_congr_left fun digit member => ?_
      exact (digitChar_digit (Nat.digits_lt_base (by decide) member)).2
    have nonempty : ((Nat.digits 10 value).map Nat.digitChar).reverse ≠ [] := by
      simpa using Nat.digits_ne_nil_iff_ne_zero.mpr zero
    simp only [number, if_neg zero, List.takeWhile_append_of_pos digit, ends,
      List.dropWhile_append_of_pos digit, List.append_nil]
    rw [List.reverse_reverse, values, Nat.ofDigits_digits]

def escape (char : Char) : List Char :=
  if char = '"' then ['\\', '"']
  else if char = '\\' then ['\\', '\\']
  else if char = '\x08' then ['\\', 'b']
  else if char = '\x0c' then ['\\', 'f']
  else if char = '\n' then ['\\', 'n']
  else if char = '\x0d' then ['\\', 'r']
  else if char = '\t' then ['\\', 't']
  else if char.toNat < 32 then
    ['\\', 'u', '0', '0', Nat.digitChar (char.toNat / 16), Nat.digitChar (char.toNat % 16)]
  else [char]

def hexDigit (char : Char) : Nat :=
  if char.isDigit then char.toNat - 48 else char.toNat - 87

def unescape : List Char → Option (Char × List Char)
  | '\\' :: 'u' :: '0' :: '0' :: high :: low :: rest =>
      some (Char.ofNat (hexDigit high * 16 + hexDigit low), rest)
  | '\\' :: 'b' :: rest => some ('\x08', rest)
  | '\\' :: 'f' :: rest => some ('\x0c', rest)
  | '\\' :: 'n' :: rest => some ('\n', rest)
  | '\\' :: 'r' :: rest => some ('\x0d', rest)
  | '\\' :: 't' :: rest => some ('\t', rest)
  | '\\' :: char :: rest => some (char, rest)
  | char :: rest => some (char, rest)
  | [] => none

def character : Codec Char := ⟨escape, unescape⟩

private theorem hexDigit_pair {code : Nat} (small : code < 32) :
    hexDigit (Nat.digitChar (code / 16)) * 16 + hexDigit (Nat.digitChar (code % 16)) = code := by
  decide +revert

theorem character_lawful : character.Lawful (fun _ => True) := by
  intro char rest _
  simp only [character, escape]
  split
  · simp [unescape, *]
  split
  · simp [unescape, *]
  split
  · simp [unescape, *]
  split
  · simp [unescape, *]
  split
  · simp [unescape, *]
  split
  · simp [unescape, *]
  split
  · simp [unescape, *]
  split
  · rename_i control
    simp [unescape, hexDigit_pair control]
  · simp [unescape, *]

theorem escape_cons (char : Char) : ∃ first more, escape char = first :: more ∧ first ≠ '"' := by
  unfold escape
  repeat' split
  all_goals simp [*]

def string : Codec String :=
  ((character.upTo '"').after ['"']).imap String.toList (fun chars => some (String.ofList chars))

theorem string_lawful : string.Lawful (fun _ => True) :=
  (((character_lawful.upTo (fun _ => trivial) (fun _ _ => trivial) escape_cons).after ['"'])).imap
    (fun text => by simp)

def boolean : Codec Bool where
  print value := if value then "true".toList else "false".toList
  parse text :=
    match Codec.strip "true".toList text with
    | some rest => some (true, rest)
    | none => (Codec.strip "false".toList text).map (false, ·)

theorem boolean_lawful : boolean.Lawful (fun _ => True) := by
  rintro (_ | _) rest _
  · rfl
  · rfl

def u8 : Codec UInt8 :=
  number.imap UInt8.toNat (fun value => if value < 2 ^ 8 then some (UInt8.ofNat value) else none)

def u16 : Codec UInt16 :=
  number.imap UInt16.toNat (fun value => if value < 2 ^ 16 then some (UInt16.ofNat value) else none)

def u64 : Codec UInt64 :=
  number.imap UInt64.toNat (fun value => if value < 2 ^ 64 then some (UInt64.ofNat value) else none)

theorem u8_lawful : u8.Lawful Delimited :=
  number_lawful.imap (fun value => by simp [value.toNat_lt])

theorem u16_lawful : u16.Lawful Delimited :=
  number_lawful.imap (fun value => by simp [value.toNat_lt])

theorem u64_lawful : u64.Lawful Delimited :=
  number_lawful.imap (fun value => by simp [value.toNat_lt])

def nullableString : Codec (Option String) where
  print
    | none => "null".toList
    | some value => string.print value
  parse text :=
    match Codec.strip "null".toList text with
    | some rest => some (none, rest)
    | none => (string.parse text).map (fun (value, rest) => (some value, rest))

theorem nullableString_lawful : nullableString.Lawful (fun _ => True) := by
  rintro (_ | value) rest _
  · rfl
  · have quoted : Codec.strip "null".toList (string.print value ++ rest) = none := rfl
    simp only [nullableString, quoted, string_lawful value rest trivial]
    rfl

def Opens (codec : Codec α) (char : Char) : Prop :=
  ∀ value, ∃ text, codec.print value = char :: text

theorem string_opens : Opens string '"' := fun _ => ⟨_, rfl⟩

def sequence (opening closing : Char) (element : Codec α) : Codec (List α) where
  print
    | [] => [opening, closing]
    | value :: values =>
        opening :: element.print value ++ ((element.after [',']).upTo closing).print values
  parse text :=
    (Codec.strip [opening] text).bind (fun inside =>
      match Codec.strip [closing] inside with
      | some rest => some ([], rest)
      | none =>
          (element.parse inside).bind (fun (value, later) =>
            (((element.after [',']).upTo closing).parse later).map (fun (values, rest) => (value :: values, rest))))

theorem sequence_opens (opening closing : Char) (element : Codec α) :
    Opens (sequence opening closing element) opening := by
  rintro (_ | ⟨value, values⟩)
  · exact ⟨_, rfl⟩
  · exact ⟨_, rfl⟩

theorem sequence_lawful {element : Codec α} (lawful : element.Lawful Delimited)
    {opening closing first : Char} (opens : Opens element first) (differs : first ≠ closing)
    (closes : closing.isDigit = false) (noComma : ',' ≠ closing) :
    (sequence opening closing element).Lawful (fun _ => True) := by
  have laterLawful : ((element.after [',']).upTo closing).Lawful (fun _ => True) := by
    refine (lawful.after [',']).upTo (fun rest => ?_) (fun value rest => ?_) fun value => ?_
    · simp [Delimited, closes]
    · simp [Delimited, Codec.after]
    · exact ⟨',', element.print value, rfl, noComma⟩
  rintro (_ | ⟨value, values⟩) rest _
  · simp [sequence, Codec.strip]
  · obtain ⟨text, shape⟩ := opens value
    have delimited : Delimited (((element.after [',']).upTo closing).print values ++ rest) := by
      cases values with
      | nil => simp [Delimited, Codec.upTo, closes]
      | cons next values => simp [Delimited, Codec.upTo, Codec.after]
    have read := lawful value _ delimited
    rw [shape, List.cons_append] at read
    simp [sequence, Codec.strip, shape, differs, read, laterLawful values rest trivial]

def array (element : Codec α) : Codec (List α) := sequence '[' ']' element

theorem array_lawful {element : Codec α} (lawful : element.Lawful Delimited) {first : Char}
    (opens : Opens element first) (differs : first ≠ ']') :
    (array element).Lawful (fun _ => True) :=
  sequence_lawful lawful opens differs (by decide) (by decide)

def key (name : String) : List Char := '"' :: name.toList ++ ['"', ':']

def field (name : String) (codec : Codec α) : Codec α := codec.after (key name)

theorem field_lawful {codec : Codec α} (lawful : codec.Lawful follows) (name : String) :
    (field name codec).Lawful follows := lawful.after (key name)

def fields (first : Codec α) (second : Codec β) : Codec (α × β) :=
  first.andThen (second.after [','])

theorem fields_lawful {first : Codec α} {second : Codec β} (firstLawful : first.Lawful Delimited)
    (secondLawful : second.Lawful follows) :
    (fields first second).Lawful follows :=
  firstLawful.andThen (secondLawful.after [',']) (fun _ _ _ => by simp [Delimited, Codec.after])

def Past (names : List String) (rest : List Char) : Prop :=
  Delimited rest ∧ ∀ name ∈ names, ¬ (',' :: key name) <+: rest

def optionalField (first : Codec α) (name : String) (codec : Codec β) : Codec (α × Option β) :=
  first.andThen (codec.optional (',' :: key name))

theorem optionalField_lawful {first : Codec α} {codec : Codec β} {names : List String}
    (firstLawful : first.Lawful (Past names)) (name : String) (lawful : codec.Lawful Delimited)
    (distinct : ∀ other ∈ names, ∀ rest, ¬ (',' :: key other) <+: (',' :: key name) ++ rest) :
    (optionalField first name codec).Lawful (Past (name :: names)) := by
  refine firstLawful.andThen ((lawful.optional (',' :: key name)).weaken fun rest past => ?_) ?_
  · exact ⟨past.1, past.2 name (by simp)⟩
  · rintro (_ | value) rest past
    · exact ⟨past.1, fun other member => past.2 other (by simp [member])⟩
    · refine ⟨by simp [Codec.optional, Delimited], fun other member => ?_⟩
      simpa [Codec.optional, List.append_assoc] using distinct other member (codec.print value ++ rest)

def object (codec : Codec α) : Codec α := (codec.after ['\x7b']).before ['\x7d']

theorem object_opens (codec : Codec α) : Opens (object codec) '\x7b' := fun _ => ⟨_, rfl⟩

theorem object_lawful {codec : Codec α} {names : List String} (lawful : codec.Lawful (Past names)) :
    (object codec).Lawful (fun _ => True) :=
  (lawful.after _).before (fun rest => ⟨by simp [Delimited], fun name _ starts => by
    simp at starts⟩)

theorem record_lawful {codec : Codec α} (lawful : codec.Lawful Delimited) : (object codec).Lawful (fun _ => True) :=
  (lawful.after _).before (fun _ => by simp [Delimited])

def toVec (codec : Codec α) (value : α) : List UInt8 :=
  (codec.print value).flatMap String.utf8EncodeChar

theorem toVec_opens {codec : Codec α} {char : Char} (opens : Opens codec char) (value : α) :
    ∃ bytes, toVec codec value = String.utf8EncodeChar char ++ bytes := by
  obtain ⟨text, printed⟩ := opens value
  exact ⟨_, by rw [toVec, printed, List.flatMap_cons]⟩

def fromSlice (codec : Codec α) (bytes : List UInt8) : Option α :=
  bytes.toByteArray.utf8Decode?.bind (fun chars =>
    match codec.parse chars.toList with
    | some (value, []) => some value
    | _ => none)

theorem fromSlice_toVec {codec : Codec α} (lawful : codec.Lawful follows) (ends : follows []) (value : α) :
    fromSlice codec (toVec codec value) = some value := by
  have decoded : ((codec.print value).flatMap String.utf8EncodeChar).toByteArray.utf8Decode? =
      some (codec.print value).toArray := List.utf8Decode?_utf8Encode
  have read := lawful value [] ends
  rw [List.append_nil] at read
  simp [fromSlice, toVec, decoded, read]

section Sizes

theorem length_toVec_le (codec : Codec α) (value : α) :
    (toVec codec value).length ≤ 4 * (codec.print value).length := by
  unfold toVec
  induction codec.print value with
  | nil => simp
  | cons char text ih =>
    have size := char.utf8Size_le_four
    simp only [List.flatMap_cons, List.length_append, String.length_utf8EncodeChar, List.length_cons]
    omega

theorem length_number_le {value width : Nat} (small : value < 10 ^ width) (positive : 0 < width) :
    (number.print value).length ≤ width := by
  unfold number
  by_cases zero : value = 0
  · simpa [zero] using Nat.succ_le_of_lt positive
  · simpa [zero] using (Nat.digits_length_le_iff (by decide) value).mpr small

theorem length_u8_le (value : UInt8) : (u8.print value).length ≤ 3 :=
  length_number_le (by have := value.toNat_lt; simp; omega) (by decide)

theorem length_u64_le (value : UInt64) : (u64.print value).length ≤ 20 :=
  length_number_le (by have := value.toNat_lt; simp; omega) (by decide)

theorem length_string {text : String} (plain : ∀ char ∈ text.toList, escape char = [char]) :
    (string.print text).length = text.toList.length + 2 := by
  have same : text.toList.flatMap escape = text.toList := by
    conv_rhs => rw [← List.flatMap_singleton' text.toList]
    exact List.flatMap_congr plain
  simp [string, Codec.imap, Codec.after, Codec.upTo, character, same]

theorem length_string_le (text : String) : (string.print text).length ≤ 6 * text.toList.length + 2 := by
  have each (char : Char) : (escape char).length ≤ 6 := by
    unfold escape
    repeat' split
    all_goals simp
  have total : (text.toList.flatMap escape).length ≤ 6 * text.toList.length := by
    induction text.toList with
    | nil => simp
    | cons char rest ih =>
      have one := each char
      simp only [List.flatMap_cons, List.length_append, List.length_cons]
      omega
  simpa [string, Codec.imap, Codec.after, Codec.upTo, character] using total

theorem length_toVec_string_le (text : String) : (toVec string text).length ≤ 6 * text.toList.length + 2 := by
  have each (char : Char) : ((escape char).flatMap String.utf8EncodeChar).length ≤ 6 := by
    have control : ∀ code < 32, (['\\', 'u', '0', '0', Nat.digitChar (code / 16),
        Nat.digitChar (code % 16)].flatMap String.utf8EncodeChar).length ≤ 6 := by decide
    unfold escape
    repeat' split
    all_goals first
      | exact control _ (by assumption)
      | (have size := char.utf8Size_le_four
         simp [String.length_utf8EncodeChar]
         omega)
      | decide
  have total : ((text.toList.flatMap escape).flatMap String.utf8EncodeChar).length ≤ 6 * text.toList.length := by
    induction text.toList with
    | nil => simp
    | cons char rest ih =>
      have one := each char
      simp only [List.flatMap_cons, List.flatMap_append, List.length_append, List.length_cons]
      omega
  have quote : (String.utf8EncodeChar '"').length = 1 := by decide
  simp only [toVec, string, Codec.imap, Codec.after, Codec.upTo, character, List.flatMap_append,
    List.length_append, List.flatMap_cons, List.flatMap_nil, List.append_nil, quote]
  omega

theorem length_flatMap_ascii {text : List Char} (ascii : ∀ char ∈ text, char.utf8Size = 1) :
    (text.flatMap String.utf8EncodeChar).length = text.length := by
  induction text with
  | nil => rfl
  | cons char rest ih =>
    have later := ih (fun other member => ascii other (List.mem_cons_of_mem _ member))
    simp only [List.flatMap_cons, List.length_append, String.length_utf8EncodeChar,
      ascii char (List.mem_cons_self ..), later, List.length_cons]
    omega

theorem length_utf8 (text : String) : (text.toList.flatMap String.utf8EncodeChar).length = text.utf8ByteSize := by
  have encoded : text.toByteArray = text.toList.utf8Encode := by
    rw [← String.toByteArray_ofList, String.ofList_toList]
  rw [show text.utf8ByteSize = text.toByteArray.size from rfl, encoded, List.utf8Encode, ByteArray.size]
  simp

theorem length_toVec_string {text : String} (plain : ∀ char ∈ text.toList, escape char = [char]) :
    (toVec string text).length = text.utf8ByteSize + 2 := by
  have same : text.toList.flatMap escape = text.toList := by
    conv_rhs => rw [← List.flatMap_singleton' text.toList]
    exact List.flatMap_congr plain
  have quote : (String.utf8EncodeChar '"').length = 1 := by decide
  simp only [toVec, string, Codec.imap, Codec.after, Codec.upTo, character, same, List.flatMap_append,
    List.length_append, length_utf8, List.flatMap_cons, List.flatMap_nil, List.append_nil, quote]
  omega

theorem length_le_byteLength (text : String) : text.toList.length ≤ text.utf8ByteSize := by
  rw [← length_utf8]
  induction text.toList with
  | nil => simp
  | cons char rest ih =>
    have positive := char.utf8Size_pos
    simp only [List.flatMap_cons, List.length_append, List.length_cons, String.length_utf8EncodeChar]
    omega

def keyBytes (name : String) : Nat := ((key name).flatMap String.utf8EncodeChar).length

theorem length_toVec_field (name : String) (codec : Codec α) (value : α) :
    (toVec (field name codec) value).length = keyBytes name + (toVec codec value).length := by
  simp only [toVec, field, Codec.after, keyBytes, List.flatMap_append, List.length_append]

private theorem length_comma : ([','].flatMap String.utf8EncodeChar).length = 1 := by decide

theorem length_toVec_fields (first : Codec α) (second : Codec β) (value : α × β) :
    (toVec (fields first second) value).length =
      (toVec first value.1).length + 1 + (toVec second value.2).length := by
  simp only [toVec, fields, Codec.andThen, Codec.after, List.flatMap_append, List.length_append, length_comma]
  omega

theorem length_toVec_object (codec : Codec α) (value : α) :
    (toVec (object codec) value).length = (toVec codec value).length + 2 := by
  have braces : (['\x7b'].flatMap String.utf8EncodeChar).length = 1 ∧
      (['\x7d'].flatMap String.utf8EncodeChar).length = 1 := by decide
  simp only [toVec, object, Codec.after, Codec.before, List.flatMap_append, List.length_append, braces.1, braces.2]
  omega

theorem length_toVec_optionalField_some (first : Codec α) (name : String) (codec : Codec β)
    (value : α) (present : β) :
    (toVec (optionalField first name codec) (value, some present)).length =
      (toVec first value).length + 1 + keyBytes name + (toVec codec present).length := by
  have opening : ((',' :: key name).flatMap String.utf8EncodeChar).length = 1 + keyBytes name := by
    rw [← List.singleton_append, List.flatMap_append, List.length_append, length_comma, keyBytes]
  simp only [toVec, optionalField, Codec.andThen, Codec.optional, List.flatMap_append,
    List.length_append] at opening ⊢
  omega

theorem length_toVec_optionalField (first : Codec α) (name : String) (codec : Codec β)
    (value : α) (field : Option β) :
    (toVec (optionalField first name codec) (value, field)).length = (toVec first value).length +
        field.elim 0 (fun present => 1 + keyBytes name + (toVec codec present).length) := by
  cases field with
  | none => simp [toVec, optionalField, Codec.andThen, Codec.optional]
  | some present =>
    rw [length_toVec_optionalField_some, Option.elim_some]
    omega

@[simp] theorem length_field (name : String) (codec : Codec α) (value : α) : ((field name codec).print value).length =
      name.toList.length + 3 + (codec.print value).length := by
  simp only [field, Codec.after, key, List.length_append, List.length_cons, List.length_nil]

@[simp] theorem length_fields (first : Codec α) (second : Codec β) (value : α × β) :
    ((fields first second).print value).length =
      (first.print value.1).length + 1 + (second.print value.2).length := by
  simp only [fields, Codec.andThen, Codec.after, List.length_append, List.length_singleton]
  omega

@[simp] theorem length_object (codec : Codec α) (value : α) :
    ((object codec).print value).length = (codec.print value).length + 2 := by
  simp only [object, Codec.after, Codec.before, List.length_append, List.length_singleton]
  omega

@[simp] theorem length_optionalField_none (first : Codec α) (name : String) (codec : Codec β)
    (value : α) : ((optionalField first name codec).print (value, none)).length = (first.print value).length := by
  simp [optionalField, Codec.andThen, Codec.optional]

@[simp] theorem length_optionalField_some (first : Codec α) (name : String) (codec : Codec β)
    (value : α) (field : β) : ((optionalField first name codec).print (value, some field)).length =
      (first.print value).length + name.toList.length + 4 + (codec.print field).length := by
  simp only [optionalField, Codec.andThen, Codec.optional, key, List.length_append, List.length_cons, List.length_nil]
  omega

theorem length_optionalField_le (first : Codec α) (name : String) (codec : Codec β) (value : α) (field : Option β)
    {bound : Nat} (bounded : ∀ present ∈ field, (codec.print present).length ≤ bound) :
    ((optionalField first name codec).print (value, field)).length ≤
      (first.print value).length + name.toList.length + 4 + bound := by
  cases field with
  | none =>
    rw [length_optionalField_none]
    omega
  | some present =>
    have fits := bounded present rfl
    rw [length_optionalField_some]
    omega

theorem length_array_le (element : Codec α) (values : List α) : ((array element).print values).length ≤
      2 + (values.map (fun value => (element.print value).length + 1)).sum := by
  have rest : ∀ values : List α, (((element.after [',']).upTo ']').print values).length ≤
      1 + (values.map (fun value => (element.print value).length + 1)).sum := by
    intro values
    induction values with
    | nil => simp [Codec.upTo]
    | cons value values ih =>
      simp only [Codec.upTo, Codec.after, List.flatMap_cons, List.length_append, List.length_cons,
        List.length_nil, List.map_cons, List.sum_cons] at ih ⊢
      omega
  cases values with
  | nil => simp [array, sequence]
  | cons value values =>
    have later := rest values
    simp only [array, sequence, List.length_append, List.length_cons, List.map_cons, List.sum_cons]
    omega

def listBytes (sizes : List Nat) : Nat :=
  if sizes = [] then 2 else 1 + (sizes.map (· + 1)).sum

theorem length_toVec_sequence {opening closing : Char} (element : Codec α) (values : List α)
    (opened : opening.utf8Size = 1) (closed : closing.utf8Size = 1) :
    (toVec (sequence opening closing element) values).length =
      listBytes (values.map (fun value => (toVec element value).length)) := by
  have rest : ∀ values : List α,
      ((((element.after [',']).upTo closing).print values).flatMap String.utf8EncodeChar).length =
        1 + (values.map (fun value => (toVec element value).length + 1)).sum := by
    intro values
    induction values with
    | nil => simp [Codec.upTo, String.length_utf8EncodeChar, closed]
    | cons value values ih =>
      have comma : (String.utf8EncodeChar ',').length = 1 := by decide
      simp only [Codec.upTo, Codec.after, toVec, List.flatMap_cons, List.flatMap_nil,
        List.append_nil, List.flatMap_append, List.length_append, List.append_assoc,
        List.map_cons, List.sum_cons, comma] at ih ⊢
      omega
  cases values with
  | nil => simp [listBytes, toVec, sequence, String.length_utf8EncodeChar, opened, closed]
  | cons value values =>
    have later := rest values
    have shape : (sequence opening closing element).print (value :: values) =
        [opening] ++ element.print value ++ ((element.after [',']).upTo closing).print values :=
      rfl
    have bracket : ([opening].flatMap String.utf8EncodeChar).length = 1 := by
      simp [String.length_utf8EncodeChar, opened]
    simp only [listBytes, reduceCtorEq, ↓reduceIte, toVec, shape, List.flatMap_append,
      List.length_append, bracket, List.map_cons, List.sum_cons, List.map_map,
      Function.comp_def] at later ⊢
    omega

theorem length_toVec_sequence_le {opening closing : Char} (element : Codec α) (values : List α)
    (opened : opening.utf8Size = 1) (closed : closing.utf8Size = 1) :
    (toVec (sequence opening closing element) values).length ≤
      2 + (values.map (fun value => (toVec element value).length + 1)).sum := by
  rw [length_toVec_sequence element values opened closed, listBytes]
  split
  · exact Nat.le_add_right 2 _
  · simp only [List.map_map, Function.comp_def]
    omega

theorem length_toVec_array (element : Codec α) (values : List α) : (toVec (array element) values).length =
      listBytes (values.map (fun value => (toVec element value).length)) :=
  length_toVec_sequence element values (by decide) (by decide)

end Sizes

end Werewolf.Library.Json
