import Logbook.Appender
import Logbook.Appender.Console
import Logbook.Appender.Memory
import Logbook.Appender.Sink
import Logbook.Appender.Stream
import Logbook.Appender.Trial
import Logbook.Argument
import Logbook.Attempt
import Logbook.Backend
import Logbook.Backend.Blueprint
import Logbook.Calendar
import Logbook.Destination
import Logbook.ErrorGraph
import Logbook.ErrorGraph.Account
import Logbook.ErrorGraph.Sketch
import Logbook.Event
import Logbook.Facade
import Logbook.Failure
import Logbook.Layout
import Logbook.Level
import Logbook.Mute
import Logbook.Name
import Logbook.Notice
import Logbook.Number.Binary
import Logbook.Number.Shortest
import Logbook.Properties
import Logbook.Record
import Logbook.Registry
import Logbook.Session
import Logbook.Settings
import Logbook.Settings.Folder
import Logbook.Template
import Logbook.Text
import Logbook.Text.Blank
import Logbook.Text.Control
import Logbook.Text.Inspect
import Logbook.Text.Numeral
import Logbook.Timestamp
import Logbook.Trace
import Logbook.Zone
import Logbook.Zone.Region
import Logbook.Proofs.ErrorGraph.Tour
import Logbook.Proofs.ErrorGraph.Walk
import Logbook.Proofs.ErrorGraph.Account
import Logbook.Proofs.Name.Lineage
import Logbook.Proofs.Name.Walk
import Logbook.Proofs.Settings.Resolution
import Logbook.Proofs.Settings.Spellings
import Logbook.Proofs.Text.Trailing
import Logbook.Proofs.Text.Control
import Logbook.Proofs.Text.Numeral
import Logbook.Proofs.Calendar
import Logbook.Proofs.Timestamp
import Logbook.Proofs.Timestamp.Reading
import Logbook.Proofs.Timestamp.Order
import Logbook.Proofs.Name.Segments
import Logbook.Proofs.Name.Condense
import Logbook.Proofs.Record.Ink
import Logbook.Proofs.Renderer
import Logbook.Proofs.Record.Control
import Logbook.Proofs.Record.Parts
import Logbook.Proofs.Record.Column
import Logbook.Proofs.Template.Outline
import Logbook.Proofs.Template.Message
import Logbook.Proofs.Registry.Growth
import Logbook.Proofs.Session.Run
import Logbook.Proofs.Session.Attempt
import Logbook.Proofs.Session.Delivery
import Logbook.Proofs.Text.Order
import Logbook.Proofs.Registry.Writes
import Logbook.Proofs.Registry.Requests
import Logbook.Proofs.Mute.Coverage
import Logbook.Proofs.Mute.Names
import Logbook.Proofs.Session.History
import Logbook.Proofs.Session.Muting
import Logbook.Proofs.Properties.Document
import Logbook.Proofs.Properties.Seam
import Logbook.Proofs.Properties.Break
import Logbook.Proofs.Properties.Escape
import Logbook.Proofs.Trace.Reading
import Logbook.Proofs.Zone.Reading
import Logbook.Proofs.Zone.Grammar
import Logbook.Proofs.Settings.Inheritance
import Logbook.Proofs.Settings.Integers
import Logbook.Proofs.Session.Hierarchy
import Logbook.Proofs.Facade
import Logbook.Proofs.Appender.Lines
