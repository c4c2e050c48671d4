import Werewolf.Library.Json

/-! Padded Base64 over the standard alphabet: what is assumed of an encoder and
its decoder, and an encoder and a decoder of which it holds. -/

namespace Werewolf.Library.Base64

def alphabet : List Char :=
  "ABCDEFGHIJKLMNOPQRSTUVWXYZabcdefghijklmnopqrstuvwxyz0123456789+/".toList

/-- Four characters for three bytes, the last group padded, and the decoder
returns the bytes. -/
structure Standard (encode : List UInt8 → String) (decode : String → Option (List UInt8)) :
    Prop where
  roundTrip : ∀ bytes, decode (encode bytes) = some bytes
  length : ∀ bytes, (encode bytes).toList.length = (bytes.length + 2) / 3 * 4
  characters : ∀ bytes, ∀ char ∈ (encode bytes).toList, char ∈ alphabet ∨ char = '='

section Texts

variable {encode : List UInt8 → String} {decode : String → Option (List UInt8)}

private theorem plain_characters {char : Char} (member : char ∈ alphabet ∨ char = '=') :
    Json.escape char = [char] ∧ char.utf8Size = 1 := by
  have checked : ('=' :: alphabet).all (fun char => Json.escape char = [char] && char.utf8Size = 1) = true := by
    decide +kernel
  have plain : ∀ char ∈ '=' :: alphabet, Json.escape char = [char] ∧ char.utf8Size = 1 := by
    simpa only [List.all_eq_true, Bool.and_eq_true, decide_eq_true_eq] using checked
  rcases member with member | rfl
  · exact plain char (List.mem_cons_of_mem _ member)
  · exact plain '=' (List.mem_cons_self ..)

theorem Standard.utf8ByteSize (standard : Standard encode decode) (bytes : List UInt8) :
    (encode bytes).utf8ByteSize = (bytes.length + 2) / 3 * 4 := by
  rw [← Json.length_utf8, ← standard.length bytes]
  exact Json.length_flatMap_ascii (fun char member =>
    (plain_characters (standard.characters bytes char member)).2)

theorem Standard.length_toVec (standard : Standard encode decode) (bytes : List UInt8) :
    (Json.toVec Json.string (encode bytes)).length = (bytes.length + 2) / 3 * 4 + 2 := by
  rw [Json.length_toVec_string (fun char member =>
    (plain_characters (standard.characters bytes char member)).1), standard.utf8ByteSize]

end Texts

section Codec

def digit (value : Nat) : Char := alphabet.getD value '='

def digitValue (char : Char) : Option Nat := alphabet.findIdx? (· = char)

def encodeChars : List UInt8 → List Char
  | [] => []
  | [first] => [digit (first.toNat / 4), digit (first.toNat % 4 * 16), '=', '=']
  | [first, second] =>
      [digit (first.toNat / 4), digit (first.toNat % 4 * 16 + second.toNat / 16), digit (second.toNat % 16 * 4), '=']
  | first :: second :: third :: rest =>
      digit (first.toNat / 4) :: digit (first.toNat % 4 * 16 + second.toNat / 16) ::
        digit (second.toNat % 16 * 4 + third.toNat / 64) :: digit (third.toNat % 64) ::
        encodeChars rest

/-- A padded group ends the text, and its last digit has no bits to spare. -/
def decodeChars : List Char → Option (List UInt8)
  | [] => some []
  | first :: second :: third :: fourth :: rest => do
      let first ← digitValue first
      let second ← digitValue second
      if fourth = '=' then
        if third = '=' then
          if rest.isEmpty && second % 16 = 0 then some [UInt8.ofNat (first * 4 + second / 16)]
          else none
        else do
          let third ← digitValue third
          if rest.isEmpty && third % 4 = 0 then
            some [UInt8.ofNat (first * 4 + second / 16), UInt8.ofNat (second * 16 + third / 4)]
          else none
      else do
        let third ← digitValue third
        let fourth ← digitValue fourth
        let later ← decodeChars rest
        return UInt8.ofNat (first * 4 + second / 16) :: UInt8.ofNat (second * 16 + third / 4) ::
          UInt8.ofNat (third * 64 + fourth) :: later
  | _ => none

def encode (bytes : List UInt8) : String := String.ofList (encodeChars bytes)

def decode (text : String) : Option (List UInt8) := decodeChars text.toList

private theorem digits : ∀ value < 64, digitValue (digit value) = some value ∧
    digit value ≠ '=' ∧ digit value ∈ alphabet := by
  decide +kernel

private theorem byte_eq {byte : UInt8} {value : Nat} (same : value % 256 = byte.toNat) : UInt8.ofNat value = byte :=
  UInt8.toNat.inj (by rw [UInt8.toNat_ofNat']; exact same)

theorem decodeChars_encodeChars (bytes : List UInt8) : decodeChars (encodeChars bytes) = some bytes := by
  induction bytes using encodeChars.induct with
  | case1 => rfl
  | case2 first =>
    have bound := first.toNat_lt
    have high := digits (first.toNat / 4) (by omega)
    have low := digits (first.toNat % 4 * 16) (by omega)
    have byte : UInt8.ofNat (first.toNat / 4 * 4 + first.toNat % 4 * 16 / 16) = first :=
      byte_eq (by omega)
    have spare : first.toNat % 4 * 16 % 16 = 0 := Nat.mul_mod_left ..
    simp only [encodeChars, decodeChars, high.1, low.1, byte, spare, Option.bind_eq_bind,
      Option.bind_some, ↓reduceIte, List.isEmpty_nil, decide_true, Bool.and_true]
  | case3 first second =>
    have bound := first.toNat_lt
    have bound' := second.toNat_lt
    have high := digits (first.toNat / 4) (by omega)
    have middle := digits (first.toNat % 4 * 16 + second.toNat / 16) (by omega)
    have low := digits (second.toNat % 16 * 4) (by omega)
    have byte : UInt8.ofNat (first.toNat / 4 * 4 +
        (first.toNat % 4 * 16 + second.toNat / 16) / 16) = first := byte_eq (by omega)
    have byte' : UInt8.ofNat ((first.toNat % 4 * 16 + second.toNat / 16) * 16 +
        second.toNat % 16 * 4 / 4) = second := byte_eq (by omega)
    have spare : second.toNat % 16 * 4 % 4 = 0 := Nat.mul_mod_left ..
    simp only [encodeChars, decodeChars, high.1, middle.1, low.1, low.2.1, byte, byte', spare,
      Option.bind_eq_bind, Option.bind_some, ↓reduceIte, List.isEmpty_nil, decide_true,
      Bool.and_true]
  | case4 first second third rest ih =>
    have bound := first.toNat_lt
    have bound' := second.toNat_lt
    have bound'' := third.toNat_lt
    have high := digits (first.toNat / 4) (by omega)
    have middle := digits (first.toNat % 4 * 16 + second.toNat / 16) (by omega)
    have lower := digits (second.toNat % 16 * 4 + third.toNat / 64) (by omega)
    have low := digits (third.toNat % 64) (by omega)
    have byte : UInt8.ofNat (first.toNat / 4 * 4 +
        (first.toNat % 4 * 16 + second.toNat / 16) / 16) = first := byte_eq (by omega)
    have byte' : UInt8.ofNat ((first.toNat % 4 * 16 + second.toNat / 16) * 16 +
        (second.toNat % 16 * 4 + third.toNat / 64) / 4) = second := byte_eq (by omega)
    have byte'' : UInt8.ofNat ((second.toNat % 16 * 4 + third.toNat / 64) * 64 +
        third.toNat % 64) = third := byte_eq (by omega)
    simp only [encodeChars, decodeChars, high.1, middle.1, lower.1, low.1, low.2.1, byte, byte',
      byte'', ih, Option.bind_eq_bind, Option.bind_some, ↓reduceIte, Option.pure_def]

private theorem length_encodeChars (bytes : List UInt8) :
    (encodeChars bytes).length = (bytes.length + 2) / 3 * 4 := by
  induction bytes using encodeChars.induct with
  | case1 => rfl
  | case2 | case3 => simp [encodeChars]
  | case4 first second third rest ih =>
    simp only [encodeChars, List.length_cons, ih]
    omega

private theorem encodeChars_characters (bytes : List UInt8) :
    ∀ char ∈ encodeChars bytes, char ∈ alphabet ∨ char = '=' := by
  have listed (value : Nat) : digit value ∈ alphabet ∨ digit value = '=' := by
    by_cases small : value < 64
    · exact .inl (digits value small).2.2
    · have size : alphabet.length = 64 := by decide +kernel
      exact .inr (by rw [digit, List.getD_eq_getElem?_getD, List.getElem?_eq_none (by omega), Option.getD_none])
  induction bytes using encodeChars.induct with
  | case1 => simp [encodeChars]
  | case2 | case3 => simp [encodeChars, listed]
  | case4 first second third rest ih =>
    simpa only [encodeChars, List.forall_mem_cons, listed, true_and] using ih

theorem standard : Standard encode decode where
  roundTrip bytes := by rw [decode, encode, String.toList_ofList, decodeChars_encodeChars]
  length bytes := by rw [encode, String.toList_ofList, length_encodeChars]
  characters bytes := by
    rw [encode, String.toList_ofList]
    exact encodeChars_characters bytes

end Codec

end Werewolf.Library.Base64
