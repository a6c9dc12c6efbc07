/-
# Wildcard patterns

A pattern is a text in which each `*` stands for any run of characters, the
empty run included.  The stars cut it into pieces: a code is accepted when it
starts with the first piece, ends with the last, and holds the pieces between
them in order, each found leftmost after the one before.  Blanks around a
pattern do not count; blanks around a code do.
-/

import Muster.Text.Blank

namespace Muster
namespace Text
namespace Wildcard

/-- What follows the leftmost occurrence of a piece. -/
def afterFirst (piece : List Char) : List Char → Option (List Char)
  | [] => if piece.isEmpty then some [] else none
  | c :: cs =>
    match piece.isPrefixOf? (c :: cs) with
    | some rest => some rest
    | none => afterFirst piece cs

/-- Whether a text consists of the pieces in order, with any runs of characters
before each of them. -/
def holdsPieces : List (List Char) → List Char → Bool
  | [], cs => cs.isEmpty
  | [last], cs => last.isSuffixOf cs
  | piece :: next :: pieces, cs =>
    match afterFirst piece cs with
    | some rest => holdsPieces (next :: pieces) rest
    | none => false

/-- Whether the pieces between stars accept a code: without a star, only the
code that the pattern spells. -/
def acceptsPieces : List (List Char) → List Char → Bool
  | [], code => code.isEmpty
  | [only], code => only == code
  | first :: rest, code =>
    match first.isPrefixOf? code with
    | some remaining => holdsPieces rest remaining
    | none => false

/-- Whether a pattern accepts a code. -/
def accepts (pattern code : String) : Bool :=
  acceptsPieces ((trim pattern.toList).splitOn '*') code.toList

end Wildcard
end Text
end Muster
