import Muster.Text.Blank
import Muster.Text.Pieces
import Muster.Text.Numeral
import Muster.Text.Wildcard
import Muster.Table
import Muster.Range
import Muster.Real.Binary64
import Muster.Real.Shortest
import Muster.Real.Text
import Muster.Json.Basic
import Muster.Json.Printer
import Muster.Json.Reader
import Muster.Scalar
import Muster.ListField
import Muster.Config.Basic
import Muster.Config.Match
import Muster.Config.Json
import Muster.Variables
import Muster.Direction
import Muster.Location
import Muster.Location.Ranges
import Muster.Grid
import Muster.Team
import Muster.TimeOfDay
import Muster.Troop.Uid
import Muster.Troop.Basic
import Muster.Troop.Snapshot
import Muster.Troop.Types
import Muster.Roster
import Muster.Board
import Muster.Scope
import Muster.Filter.Conditional
import Muster.Filter.Context
import Muster.Filter.Test
import Muster.Filter.Basic
import Muster.Filter.Fields
import Muster.Filter.Clause
import Muster.Filter.Compile
import Muster.Editor.Color
import Muster.Editor.Label
import Muster.Editor.LabelJson
import Muster.Editor.Edit
import Muster.Editor.History
import Muster.Proofs.Filter.Setting
import Muster.Proofs.Filter.Verdict
import Muster.Proofs.Filter.Items
import Muster.Proofs.Filter.Composition
import Muster.Proofs.Filter.Watch
import Muster.Proofs.Filter.ScopeDiscipline
import Muster.Proofs.Config.Grouping
import Muster.Proofs.Editor.Undo
import Muster.Proofs.Config.RoundTrip
import Muster.Proofs.Filter.Walk
import Muster.Proofs.Board.Roster
import Muster.Proofs.Filter.Origin
import Muster.Proofs.Filter.Placement
import Muster.Proofs.Filter.Agreement
import Muster.Proofs.Filter.Locality
import Muster.Proofs.Board.Alliances
import Muster.Proofs.Board.Hostility
import Muster.Proofs.Filter.Order
import Muster.Proofs.Filter.Flat
import Muster.Proofs.Board.Calls
import Muster.Proofs.Filter.SideQueries
import Muster.Proofs.Config.Documents
import Muster.Proofs.Text.Numerals
import Muster.Proofs.Config.Matching
import Muster.Proofs.Config.Ordered
import Muster.Proofs.Json.Spelling
import Muster.Proofs.Json.Reading
import Muster.Proofs.Config.RawText
import Muster.Proofs.Config.Printed
import Muster.Proofs.Filter.Rewriting
import Muster.Proofs.Filter.Printed
import Muster.Proofs.Board.Lattice
import Muster.Proofs.Filter.Tally
import Muster.Proofs.Text.Items
import Muster.Proofs.Troop.Snapshot
import Muster.Proofs.Filter.Plain
import Muster.Proofs.Filter.BlankLists
import Muster.Proofs.Filter.Conditionals
import Muster.Proofs.Filter.CallLog
import Muster.Proofs.Filter.Numbers
import Muster.Proofs.Filter.Vision
import Muster.Proofs.Filter.Patterns
import Muster.Proofs.Filter.Mirror
import Muster.Proofs.Filter.Stances
import Muster.Proofs.Text.Wildcards
import Muster.Proofs.Variables.Paths
import Muster.Proofs.Variables.Lookup
import Muster.Proofs.Config.Equality
import Muster.Proofs.Editor.LastWriting
import Muster.Proofs.Editor.LabelDocuments
import Muster.Proofs.Text.RangeLists
import Muster.Proofs.Text.CoordinateLists
import Muster.Proofs.Board.Terrain
import Muster.Proofs.Filter.Guards
import Muster.Proofs.Text.CommaLists
import Muster.Proofs.Text.DirectionNames
import Muster.Proofs.Text.RangeValues
