/-
# Comma lists

A list-valued field is written with commas.  Two readings of it are in use:

| reading | blanks around a piece | empty pieces |
| --- | --- | --- |
| `commaPieces` | taken off | kept, so that positions count |
| `splitList` | taken off | dropped |
-/

import Muster.Text.Blank

namespace Muster
namespace Text

/-- The trimmed pieces between the commas of a text, empty ones included. -/
def commaPieces (s : String) : List (List Char) := (s.toList.splitOn ',').map trim

/-- The items of a comma list: its trimmed pieces that are not empty. -/
def splitList (s : String) : List String :=
  ((commaPieces s).filter fun p => !p.isEmpty).map String.ofList

end Text
end Muster
