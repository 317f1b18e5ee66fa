import Walkthrough.Act
import Walkthrough.Chronicle
import Walkthrough.CommandLine
import Walkthrough.Decimal.Double
import Walkthrough.Decimal.Notation
import Walkthrough.Decimal.Shortest
import Walkthrough.Dialogue
import Walkthrough.Fault
import Walkthrough.FileTree
import Walkthrough.Json.Reader
import Walkthrough.Json.Value
import Walkthrough.Json.Writer
import Walkthrough.Main
import Walkthrough.Outcome
import Walkthrough.Outcome.Record
import Walkthrough.Page.Expression
import Walkthrough.Page.Script
import Walkthrough.Path
import Walkthrough.Program
import Walkthrough.Proofs.Act
import Walkthrough.Proofs.Chronicle
import Walkthrough.Proofs.Decimal.Double
import Walkthrough.Proofs.Decimal.Notation
import Walkthrough.Proofs.Decimal.Shortest
import Walkthrough.Proofs.FileTree
import Walkthrough.Proofs.FileTree.Alters
import Walkthrough.Proofs.FileTree.Proper
import Walkthrough.Proofs.Json.Line
import Walkthrough.Proofs.Json.Number
import Walkthrough.Proofs.Json.Spelling
import Walkthrough.Proofs.Json.Text
import Walkthrough.Proofs.Json.Value
import Walkthrough.Proofs.Moment
import Walkthrough.Proofs.Outcome
import Walkthrough.Proofs.Outcome.Record
import Walkthrough.Proofs.Page.Expression
import Walkthrough.Proofs.Path
import Walkthrough.Proofs.Program
import Walkthrough.Proofs.Reply.Capture
import Walkthrough.Proofs.Reply.Section
import Walkthrough.Proofs.Reply.Shipped
import Walkthrough.Proofs.Report
import Walkthrough.Proofs.Report.Files
import Walkthrough.Proofs.Report.Pages
import Walkthrough.Proofs.Report.Snapshot
import Walkthrough.Proofs.Report.Stored
import Walkthrough.Proofs.Report.Within
import Walkthrough.Proofs.Run.Agreement
import Walkthrough.Proofs.Run.Discovery
import Walkthrough.Proofs.Run.Documents
import Walkthrough.Proofs.Run.Entries
import Walkthrough.Proofs.Run.Evidence
import Walkthrough.Proofs.Run.Faults
import Walkthrough.Proofs.Run.Hinge
import Walkthrough.Proofs.Run.Kept
import Walkthrough.Proofs.Run.Lasting
import Walkthrough.Proofs.Run.Navigate
import Walkthrough.Proofs.Run.OwnPage
import Walkthrough.Proofs.Run.PlanFirst
import Walkthrough.Proofs.Run.Ready
import Walkthrough.Proofs.Run.Script
import Walkthrough.Proofs.Run.Shipped
import Walkthrough.Proofs.Run.Step
import Walkthrough.Proofs.Run.Stored
import Walkthrough.Proofs.Run.Stray
import Walkthrough.Proofs.Run.Success
import Walkthrough.Proofs.Run.Suite
import Walkthrough.Proofs.Run.Terse
import Walkthrough.Proofs.Run.Transport
import Walkthrough.Proofs.Run.Turn
import Walkthrough.Proofs.Run.Twin
import Walkthrough.Proofs.Run.Visit
import Walkthrough.Proofs.Session.Balance
import Walkthrough.Proofs.Session.Call
import Walkthrough.Proofs.Session.Lifetime
import Walkthrough.Proofs.Session.Primary
import Walkthrough.Proofs.Settings.Precedence
import Walkthrough.Proofs.Settings.Variables
import Walkthrough.Proofs.Slug
import Walkthrough.Proofs.Slug.Words
import Walkthrough.Proofs.Step.Grammar
import Walkthrough.Proofs.Step.Parted
import Walkthrough.Proofs.Step.Shape
import Walkthrough.Proofs.Suite.Damage
import Walkthrough.Proofs.Suite.File
import Walkthrough.Proofs.Suite.Lead
import Walkthrough.Proofs.Suite.Name
import Walkthrough.Proofs.Suite.Reader
import Walkthrough.Proofs.Suite.Writer
import Walkthrough.Proofs.Text.Base64
import Walkthrough.Proofs.Text.Blank
import Walkthrough.Proofs.Text.Damage
import Walkthrough.Proofs.Text.Feed
import Walkthrough.Proofs.Text.Letter
import Walkthrough.Proofs.Text.Line
import Walkthrough.Proofs.Text.Piece
import Walkthrough.Proofs.Text.Utf8
import Walkthrough.Proofs.Twin
import Walkthrough.Proofs.Url.Alternative
import Walkthrough.Proofs.Url.Join
import Walkthrough.Proofs.Url.Page
import Walkthrough.Proofs.Url.Parts
import Walkthrough.Proofs.Url.Segment
import Walkthrough.Proofs.Url.Site
import Walkthrough.Proofs.Way
import Walkthrough.Report
import Walkthrough.Run
import Walkthrough.Run.Step
import Walkthrough.Run.Suite
import Walkthrough.Server.Reply
import Walkthrough.Server.Scripted
import Walkthrough.Server.Session
import Walkthrough.Server.Wire
import Walkthrough.Settings
import Walkthrough.Settings.EnvFile
import Walkthrough.Settings.Environment
import Walkthrough.Settings.Reading
import Walkthrough.Settings.ShellWords
import Walkthrough.Slug
import Walkthrough.Step
import Walkthrough.Step.Description
import Walkthrough.Step.Shape
import Walkthrough.Suite
import Walkthrough.Suite.Reader
import Walkthrough.Suite.Writer
import Walkthrough.Text.Base64
import Walkthrough.Text.Blank
import Walkthrough.Text.Bytes
import Walkthrough.Text.Digit
import Walkthrough.Text.Hex
import Walkthrough.Text.Line
import Walkthrough.Text.Printable
import Walkthrough.Text.Quoted
import Walkthrough.Text.Utf8
import Walkthrough.Text.Utf8.Damage
import Walkthrough.Url.Host
import Walkthrough.Url.Page
import Walkthrough.Url.Reference
import Walkthrough.Url.Split
import Walkthrough.World
