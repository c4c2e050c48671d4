import Mathlib.Data.Char
import Mathlib.Data.List.Basic

/-! JSON values with their members as they are written, and the texts a value may be
written as. -/

namespace Werewolf.Library.Json

inductive Value where
  | null
  | bool (value : Bool)
  | number (token : List Char)
  | string (text : String)
  | array (items : List Value)
  | object (members : List (String × Value))

mutual

def Value.depth : Value → Nat
  | .array items => depthItems items + 1
  | .object members => depthMembers members + 1
  | _ => 0

def depthItems : List Value → Nat
  | [] => 0
  | item :: rest => max item.depth (depthItems rest)

def depthMembers : List (String × Value) → Nat
  | [] => 0
  | (_, value) :: rest => max value.depth (depthMembers rest)

end

mutual

/-- No object in the value has two members of one name. -/
def Value.Distinct : Value → Prop
  | .array items => DistinctItems items
  | .object members => (members.map (·.1)).Nodup ∧ DistinctMembers members
  | _ => True

def DistinctItems : List Value → Prop
  | [] => True
  | item :: rest => item.Distinct ∧ DistinctItems rest

def DistinctMembers : List (String × Value) → Prop
  | [] => True
  | (_, value) :: rest => value.Distinct ∧ DistinctMembers rest

end

def Blank (text : List Char) : Prop := ∀ char ∈ text, char ∈ [' ', '\t', '\n', '\x0d']

def hexValue (char : Char) : Option Nat :=
  if char.isDigit then some (char.toNat - 48)
  else if 'a' ≤ char ∧ char ≤ 'f' then some (char.toNat - 87)
  else if 'A' ≤ char ∧ char ≤ 'F' then some (char.toNat - 55)
  else none

def CodeUnit (digits : List Char) (unit : Nat) : Prop :=
  digits.length = 4 ∧ digits.foldlM (fun value digit => (hexValue digit).map (value * 16 + ·)) 0 = some unit

def shortEscapes : List (Char × Char) := [('"', '"'), ('\\', '\\'), ('/', '/'), ('b', '\x08'),
  ('f', '\x0c'), ('n', '\n'), ('r', '\x0d'), ('t', '\t')]

def Plain (char : Char) : Prop := char ≠ '"' ∧ char ≠ '\\' ∧ 0x20 ≤ char.toNat

/-- What may stand between the quotes for some characters. -/
inductive Quoted : List Char → List Char → Prop where
  | nil : Quoted [] []
  | plain {char : Char} {chars text : List Char} (plain : Plain char) (rest : Quoted chars text) :
      Quoted (char :: chars) (char :: text)
  | short {name char : Char} {chars text : List Char} (named : (name, char) ∈ shortEscapes)
      (rest : Quoted chars text) : Quoted (char :: chars) ('\\' :: name :: text)
  | unit {char : Char} {chars text digits : List Char} (unit : CodeUnit digits char.toNat)
      (rest : Quoted chars text) : Quoted (char :: chars) ('\\' :: 'u' :: digits ++ text)
  | pair {char : Char} {chars text high low : List Char} (astral : 0x10000 ≤ char.toNat)
      (first : CodeUnit high (0xD800 + (char.toNat - 0x10000) / 0x400))
      (second : CodeUnit low (0xDC00 + (char.toNat - 0x10000) % 0x400))
      (rest : Quoted chars text) :
      Quoted (char :: chars) ('\\' :: 'u' :: high ++ '\\' :: 'u' :: low ++ text)

def Literal (string : String) (text : List Char) : Prop :=
  ∃ inside, Quoted string.toList inside ∧ text = '"' :: inside ++ ['"']

def Digits (text : List Char) : Prop := text ≠ [] ∧ ∀ char ∈ text, char.isDigit = true

def Number (token : List Char) : Prop :=
  ∃ sign integer fraction exponent, token = sign ++ integer ++ fraction ++ exponent ∧
    sign ∈ [[], ['-']] ∧ Digits integer ∧ (integer.head? = some '0' → integer = ['0']) ∧
    (fraction = [] ∨ ∃ digits, Digits digits ∧ fraction = '.' :: digits) ∧
    (exponent = [] ∨ ∃ mark sign digits, mark ∈ ['e', 'E'] ∧ sign ∈ [[], ['+'], ['-']] ∧
      Digits digits ∧ exponent = mark :: sign ++ digits)

mutual

def Value.Writes : Value → List Char → Prop
  | .null, text => text = ['n', 'u', 'l', 'l']
  | .bool true, text => text = ['t', 'r', 'u', 'e']
  | .bool false, text => text = ['f', 'a', 'l', 's', 'e']
  | .number token, text => Number token ∧ text = token
  | .string string, text => Literal string text
  | .array items, text => ∃ inside, WritesItems items inside ∧ text = '[' :: inside ++ [']']
  | .object members, text =>
      ∃ inside, WritesMembers members inside ∧ text = '\x7b' :: inside ++ ['\x7d']

def WritesItems : List Value → List Char → Prop
  | [], text => Blank text
  | item :: rest, text => ∃ before body after more, Blank before ∧ item.Writes body ∧
      Blank after ∧ text = before ++ body ++ after ++ more ∧
        (rest = [] ∧ more = [] ∨ rest ≠ [] ∧ ∃ later, more = ',' :: later ∧ WritesItems rest later)

def WritesMembers : List (String × Value) → List Char → Prop
  | [], text => Blank text
  | (key, value) :: rest, text => ∃ before name gap space body after more, Blank before ∧
      Literal key name ∧ Blank gap ∧ Blank space ∧ value.Writes body ∧ Blank after ∧
        text = before ++ name ++ gap ++ [':'] ++ space ++ body ++ after ++ more ∧ (rest = [] ∧ more = [] ∨
            rest ≠ [] ∧ ∃ later, more = ',' :: later ∧ WritesMembers rest later)

end

def Document (value : Value) (bytes : List UInt8) : Prop :=
  ∃ before text after, Blank before ∧ value.Writes text ∧ Blank after ∧
    bytes = (before ++ text ++ after).flatMap String.utf8EncodeChar

end Werewolf.Library.Json
