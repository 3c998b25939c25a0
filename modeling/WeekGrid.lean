import WeekGrid.Binary64.Whole
import WeekGrid.Civil.Reading
import WeekGrid.CommandLine.Run
import WeekGrid.Courses.Reading
import WeekGrid.Json.Reader
import WeekGrid.Main
import WeekGrid.Page.Document
import WeekGrid.Published.Retrieval
import WeekGrid.Timetable.Export
import WeekGrid.Timetable.Reading
import WeekGrid.Timetable.Report
import WeekGrid.Proofs.Binary64.DecimalPlaces
import WeekGrid.Proofs.Binary64.HalfStep
import WeekGrid.Proofs.Binary64.Monotone
import WeekGrid.Proofs.Binary64.Nearest
import WeekGrid.Proofs.Binary64.Whole
import WeekGrid.Proofs.Civil.Calendar
import WeekGrid.Proofs.Civil.Slashed
import WeekGrid.Proofs.Civil.Stamp
import WeekGrid.Proofs.Civil.Week
import WeekGrid.Proofs.Civil.Written
import WeekGrid.Proofs.CommandLine.Run
import WeekGrid.Proofs.Json.Agreement
import WeekGrid.Proofs.Keyed
import WeekGrid.Proofs.Outcome
import WeekGrid.Proofs.Page.Breakdown
import WeekGrid.Proofs.Page.Calls
import WeekGrid.Proofs.Page.Channels
import WeekGrid.Proofs.Page.Colors
import WeekGrid.Proofs.Page.Corners
import WeekGrid.Proofs.Page.DepthFirst
import WeekGrid.Proofs.Page.Figures
import WeekGrid.Proofs.Page.Ink
import WeekGrid.Proofs.Page.Kerning
import WeekGrid.Proofs.Page.Loop
import WeekGrid.Proofs.Page.OperandStack
import WeekGrid.Proofs.Page.PathHistory
import WeekGrid.Proofs.Page.Pruning
import WeekGrid.Proofs.Page.Reachability
import WeekGrid.Proofs.Page.Redrawing
import WeekGrid.Proofs.Page.Script
import WeekGrid.Proofs.Page.Steps
import WeekGrid.Proofs.Page.TextMatrix
import WeekGrid.Proofs.Page.Turns
import WeekGrid.Proofs.Page.Worklist
import WeekGrid.Proofs.Pdf.Reading
import WeekGrid.Proofs.Published.Links
import WeekGrid.Proofs.Published.Listing
import WeekGrid.Proofs.Text.Encodings
import WeekGrid.Proofs.Text.Joining
import WeekGrid.Proofs.Text.Pieces
import WeekGrid.Proofs.Timetable.Axes
import WeekGrid.Proofs.Timetable.Courses
import WeekGrid.Proofs.Timetable.Export
import WeekGrid.Proofs.Timetable.HeaderText
import WeekGrid.Proofs.Timetable.Justification
import WeekGrid.Proofs.Timetable.Marks
import WeekGrid.Proofs.Timetable.MissingCourses
import WeekGrid.Proofs.Timetable.Refusals
import WeekGrid.Proofs.Timetable.RepeatedWords
import WeekGrid.Proofs.Timetable.RowSpans
import WeekGrid.Proofs.Timetable.Times
import WeekGrid.Proofs.Timetable.Windows
import WeekGrid.Proofs.Timetable.WrittenCells
