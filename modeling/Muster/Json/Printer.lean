/-
# Compact JSON text

Values are written without blanks.  In a string only what must be escaped is:
the quote, the backslash and the controls below U+0020, of which five have short
escapes and the others are written `\u00xx`.
-/

import Muster.Json.Basic
import Muster.Real.Text
import Muster.Text.Numeral

namespace Muster
namespace Json

/-- The digit of a number below sixteen. -/
def hexDigit (n : Nat) : Char := Nat.digitChar n

/-- A character as it stands inside a string. -/
def escape (c : Char) : List Char :=
  match c with
  | '"' => ['\\', '"']
  | '\\' => ['\\', '\\']
  | '\x08' => ['\\', 'b']
  | '\x0c' => ['\\', 'f']
  | '\n' => ['\\', 'n']
  | '\r' => ['\\', 'r']
  | '\t' => ['\\', 't']
  | c => if c.toNat < 0x20 then ['\\', 'u', '0', '0', hexDigit (c.toNat / 16), hexDigit (c.toNat % 16)] else [c]

/-- A string between quotes. -/
def quote (s : String) : List Char := '"' :: s.toList.flatMap escape ++ ['"']

mutual

/-- The compact text of a value. -/
def write : Json → List Char
  | null => "null".toList
  | bool true => "true".toList
  | bool false => "false".toList
  | int n => Text.Numerals.write n
  | real r => r.jsonText
  | str s => quote s
  | arr [] => ['[', ']']
  | arr (v :: vs) => '[' :: write v ++ writeItems vs
  | obj [] => ['\x7b', '\x7d']
  | obj ((k, v) :: ms) => '\x7b' :: quote k ++ ':' :: write v ++ writeMembers ms

/-- The rest of an array after an item. -/
def writeItems : List Json → List Char
  | [] => [']']
  | v :: vs => ',' :: write v ++ writeItems vs

/-- The rest of an object after a member. -/
def writeMembers : List (String × Json) → List Char
  | [] => ['\x7d']
  | (k, v) :: ms => ',' :: quote k ++ ':' :: write v ++ writeMembers ms

end

/-- The compact text of a value. -/
def text (v : Json) : String := String.ofList v.write

end Json
end Muster
