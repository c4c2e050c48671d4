import Mathlib.Data.List.Basic

/-! The parts of the Rust string library that state validation uses, over the
characters of a text. -/

namespace Werewolf.Library

/-- `str::len`: the number of UTF-8 bytes. -/
abbrev byteLength (text : String) : Nat := text.utf8ByteSize

/-- `str::strip_prefix`. -/
def stripLeading (start text : List Char) : Option (List Char) :=
  if start.isPrefixOf text then some (text.drop start.length) else none

theorem stripLeading_eq_some {start text rest : List Char} :
    stripLeading start text = some rest ↔ text = start ++ rest := by
  simp only [stripLeading, Option.ite_none_right_eq_some, Option.some.injEq, List.isPrefixOf_iff_prefix]
  constructor
  · rintro ⟨⟨tail, rfl⟩, rfl⟩
    rw [List.drop_left]
  · rintro rfl
    exact ⟨List.prefix_append _ _, List.drop_left⟩

/-- `char::is_control`: the general category Cc. -/
def isControl (character : Char) : Bool :=
  character.toNat < 0x20 || (0x7F ≤ character.toNat && character.toNat < 0xA0)

/-- `char::is_whitespace`: the property White_Space. -/
def isWhitespace (character : Char) : Bool :=
  let code := character.toNat
  (0x09 ≤ code && code ≤ 0x0D) || code = 0x20 || code = 0x85 || code = 0xA0 || code = 0x1680 ||
    (0x2000 ≤ code && code ≤ 0x200A) || code = 0x2028 || code = 0x2029 || code = 0x202F ||
    code = 0x205F || code = 0x3000

/-- `str::trim`. -/
def trim (text : List Char) : List Char :=
  ((text.dropWhile isWhitespace).reverse.dropWhile isWhitespace).reverse

/-- `text.trim() == text`. -/
def isTrimmed (text : List Char) : Bool :=
  !text.head?.any isWhitespace && !text.getLast?.any isWhitespace

/-- `str::rsplit_once` at a character. -/
def rsplitOnce (separator : Char) (text : List Char) : Option (List Char × List Char) :=
  let after := (text.reverse.takeWhile (· ≠ separator)).reverse
  if after.length = text.length then none
  else some (text.take (text.length - after.length - 1), after)

/-- `str::parse::<u16>`: decimal digits behind at most one plus sign. -/
def parseU16 (text : List Char) : Option Nat :=
  let digits := if text.head? = some '+' then text.drop 1 else text
  if digits.isEmpty || !digits.all Char.isDigit then none
  else
    let value := digits.foldl (fun value digit => 10 * value + (digit.toNat - '0'.toNat)) 0
    if value < 0x10000 then some value else none

example : rsplitOnce ':' "[::1]:80".toList = some ("[::1]".toList, "80".toList) := by
  decide +kernel

example : parseU16 "65536".toList = none := by decide +kernel

end Werewolf.Library
