/-
# Reading JSON text

The reader follows the JSON grammar: blanks are the space, the tab, the line
feed and the carriage return; nothing may follow the value; arrays and objects
nest at most 127 deep.  It stops at the first fault, which is one of three:

| fault | when |
| --- | --- |
| end of text | the text ends where more is needed |
| malformed | the next character cannot stand there |
| repeated key | an object has a key, after unescaping, that it had before |

The first two are faults of the grammar.  The third is a rule of its own: each key is
admitted to its object (`admitKey`) as soon as it has been read, before what follows it.
-/

import Muster.Json.Basic
import Muster.Text.Numeral

namespace Muster
namespace Json

/-- Why a text is not read. -/
inductive ReadError where
  | endOfText
  | malformed
  | repeatedKey (key : String)
deriving DecidableEq

/-- How deep arrays and objects may nest. -/
def maxDepth : Nat := 127

/-- Without the blanks in front. -/
def skipBlanks (cs : List Char) : List Char :=
  cs.dropWhile fun c => c == ' ' || c == '\t' || c == '\n' || c == '\r'

/-- The fault at a place where no character fits: the end of the text, or the
character there. -/
def fault (cs : List Char) : ReadError := if cs.isEmpty then .endOfText else .malformed

/-- Read the rest of a literal. -/
def literal (v : Json) : List Char → List Char → Except ReadError (Json × List Char)
  | [], cs => .ok (v, cs)
  | e :: es, c :: cs => if c = e then literal v es cs else .error .malformed
  | _ :: _, [] => .error .endOfText

/-- The value of a hexadecimal digit. -/
def hexValue? (c : Char) : Option Nat :=
  if '0' ≤ c ∧ c ≤ '9' then some (c.toNat - '0'.toNat)
  else if 'a' ≤ c ∧ c ≤ 'f' then some (c.toNat - 'a'.toNat + 10)
  else if 'A' ≤ c ∧ c ≤ 'F' then some (c.toNat - 'A'.toNat + 10)
  else none

/-- The value of four hexadecimal digits. -/
def hexUnit? (a b c d : Char) : Option Nat := do
  return (((← hexValue? a) * 16 + (← hexValue? b)) * 16 + (← hexValue? c)) * 16 + (← hexValue? d)

/-- The fault of an escape with fewer than four characters after it: the end of
the text unless those characters take four bytes. -/
def shortEscape (cs : List Char) : ReadError :=
  if cs.foldl (fun size c => size + c.utf8Size) 0 < 4 then .endOfText else .malformed

/-- Whether a 16-bit unit is the first half of a pair. -/
def isHighHalf (n : Nat) : Bool := 0xD800 ≤ n && n < 0xDC00

/-- Whether a 16-bit unit is the second half of a pair. -/
def isLowHalf (n : Nat) : Bool := 0xDC00 ≤ n && n < 0xE000

/-- The character of a pair of halves. -/
def joinHalves (high low : Nat) : Char := Char.ofNat (0x10000 + (high - 0xD800) * 0x400 + (low - 0xDC00))

/-- The character of a one-letter escape. -/
def shortEscape? : Char → Option Char
  | '"' => some '"'
  | '\\' => some '\\'
  | '/' => some '/'
  | 'b' => some '\x08'
  | 'f' => some '\x0c'
  | 'n' => some '\n'
  | 'r' => some '\r'
  | 't' => some '\t'
  | _ => none

/-- Read the rest of a string, behind its opening quote; `done` holds the
characters so far, the last one first. -/
def stringRest (done : List Char) : List Char → Except ReadError (String × List Char)
  | [] => .error .endOfText
  | '"' :: cs => .ok (String.ofList done.reverse, cs)
  | '\\' :: 'u' :: a :: b :: c :: d :: cs =>
    match hexUnit? a b c d with
    | none => .error .malformed
    | some n =>
      if isHighHalf n then
        match cs with
        | '\\' :: 'u' :: e :: f :: g :: h :: cs =>
          match hexUnit? e f g h with
          | none => .error .malformed
          | some m => if isLowHalf m then stringRest (joinHalves n m :: done) cs else .error .malformed
        | '\\' :: 'u' :: cs => .error (shortEscape cs)
        | '\\' :: cs => .error (fault cs)
        | cs => .error (fault cs)
      else if isLowHalf n then .error .malformed
      else stringRest (Char.ofNat n :: done) cs
  | '\\' :: 'u' :: cs => .error (shortEscape cs)
  | ['\\'] => .error .endOfText
  | '\\' :: c :: cs =>
    match shortEscape? c with
    | some e => stringRest (e :: done) cs
    | none => .error .malformed
  | c :: cs => if c.toNat < 0x20 then .error .malformed else stringRest (c :: done) cs

/-- Read a non-empty run of digits. -/
def digits (cs : List Char) : Except ReadError (List Char × List Char) :=
  match cs.takeWhile Char.isDigit with
  | [] => .error (fault cs)
  | ds => .ok (ds, cs.dropWhile Char.isDigit)

/-- Read the whole part of a numeral, which has no leading zero. -/
def wholeDigits (cs : List Char) : Except ReadError (List Char × List Char) := do
  let (ds, rest) ← digits cs
  if ds.head? = some '0' && ds.length ≠ 1 then throw .malformed
  return (ds, rest)

/-- Read the digits after a point, if there is one. -/
def fractionDigits : List Char → Except ReadError (List Char × List Char)
  | '.' :: cs => digits cs
  | cs => .ok ([], cs)

/-- Read an exponent, if there is one. -/
def exponentPart : List Char → Except ReadError (Option Int × List Char)
  | c :: cs =>
    if c == 'e' || c == 'E' then
      match cs with
      | '-' :: cs => do let (ds, rest) ← digits cs; return (some (-(Nat.ofDigitChars 10 ds 0 : Int)), rest)
      | '+' :: cs => do let (ds, rest) ← digits cs; return (some (Nat.ofDigitChars 10 ds 0 : Int), rest)
      | cs => do let (ds, rest) ← digits cs; return (some (Nat.ofDigitChars 10 ds 0 : Int), rest)
    else .ok (none, c :: cs)
  | [] => .ok (none, [])

/-- Read a numeral behind its sign.  It must not be too large for a floating-point
number, even if it is whole, and a whole zero behind a minus is one, as no integer
has a sign then.  A floating-point number is the nearest to all digits of the numeral,
rounded once, however many there are. -/
def numeral (isNegative : Bool) (cs : List Char) : Except ReadError (Json × List Char) := do
  let (whole, rest) ← wholeDigits cs
  let (fraction, afterFraction) ← fractionDigits rest
  let (exponent, afterExponent) ← exponentPart afterFraction
  let magnitude := Nat.ofDigitChars 10 (whole ++ fraction) 0
  let signed : Int := if isNegative then -(magnitude : Int) else magnitude
  match Binary64.ofDecimal? magnitude (exponent.getD 0 - fraction.length) with
  | none => throw .malformed
  | some r =>
    if fraction.isEmpty && exponent.isNone && !(isNegative && magnitude = 0) then
      return (.int signed, afterExponent)
    return (.real (if isNegative then r.neg else r), afterExponent)

/-- Read the key of a member. -/
def memberKey (cs : List Char) : Except ReadError (String × List Char) :=
  match skipBlanks cs with
  | '"' :: cs => stringRest [] cs
  | cs => .error (fault cs)

/-- Read the colon behind a key. -/
def memberColon (cs : List Char) : Except ReadError (List Char) :=
  match skipBlanks cs with
  | ':' :: cs => .ok cs
  | cs => .error (fault cs)

/-- Admit a key to an object that has had the keys `seen`, none of which it may be;
the keys the object has had then. -/
def admitKey (seen : List String) (key : String) : Except ReadError (List String) :=
  if seen.contains key then .error (.repeatedKey key) else .ok (key :: seen)

mutual

/-- Read a value at most `depth` containers deep.  The first argument bounds the
number of calls. -/
def value : Nat → Nat → List Char → Except ReadError (Json × List Char)
  | 0, _, _ => .error .malformed
  | fuel + 1, depth, cs =>
    match skipBlanks cs with
    | [] => .error .endOfText
    | '"' :: cs => do let (s, cs) ← stringRest [] cs; return (.str s, cs)
    | '[' :: cs =>
      match depth with
      | 0 => .error .malformed
      | depth + 1 =>
        match skipBlanks cs with
        | ']' :: cs => .ok (.arr [], cs)
        | cs => do let (vs, cs) ← items fuel depth cs; return (.arr vs, cs)
    | '\x7b' :: cs =>
      match depth with
      | 0 => .error .malformed
      | depth + 1 =>
        match skipBlanks cs with
        | '\x7d' :: cs => .ok (.obj [], cs)
        | cs => do let (ms, cs) ← members fuel depth [] cs; return (.obj ms, cs)
    | 'n' :: cs => literal .null ['u', 'l', 'l'] cs
    | 't' :: cs => literal (.bool true) ['r', 'u', 'e'] cs
    | 'f' :: cs => literal (.bool false) ['a', 'l', 's', 'e'] cs
    | '-' :: cs => numeral true cs
    | c :: cs => if c.isDigit then numeral false (c :: cs) else .error .malformed

/-- Read the items of an array, one at least, and its end. -/
def items : Nat → Nat → List Char → Except ReadError (List Json × List Char)
  | 0, _, _ => .error .malformed
  | fuel + 1, depth, cs => do
    let (v, cs) ← value fuel depth cs
    match skipBlanks cs with
    | ']' :: cs => return ([v], cs)
    | ',' :: cs => do
      let (vs, cs) ← items fuel depth cs
      return (v :: vs, cs)
    | cs => throw (fault cs)

/-- Read the members of an object, one at least, and its end; `seen` holds the
keys before them.  A key is admitted between the grammar's two parts of a member. -/
def members : Nat → Nat → List String → List Char → Except ReadError (List (String × Json) × List Char)
  | 0, _, _, _ => .error .malformed
  | fuel + 1, depth, seen, cs => do
    let (key, cs) ← memberKey cs
    let seen ← admitKey seen key
    let cs ← memberColon cs
    let (v, cs) ← value fuel depth cs
    match skipBlanks cs with
    | '\x7d' :: cs => return ([(key, v)], cs)
    | ',' :: cs => do
      let (ms, cs) ← members fuel depth seen cs
      return ((key, v) :: ms, cs)
    | cs => throw (fault cs)

end

/-- Read a text that consists of one value.  Two calls per character are enough. -/
def read (s : String) : Except ReadError Json := do
  let cs := s.toList
  let (v, rest) ← value (2 * cs.length + 2) maxDepth cs
  if (skipBlanks rest).isEmpty then return v else throw .malformed

end Json
end Muster
