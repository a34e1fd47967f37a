import ComponentAudit.History.Recorded
import ComponentAudit.Main
import ComponentAudit.Service.Response
import ComponentAudit.Proofs.Style.Block
import ComponentAudit.Proofs.Style.RoundTrip
import ComponentAudit.Proofs.Shift.Record
import ComponentAudit.Proofs.Shift.Text
import ComponentAudit.Proofs.Script.Name
import ComponentAudit.Proofs.Shift.Region
import ComponentAudit.Proofs.Shift.Usage
import ComponentAudit.Proofs.Shift.Selector
import ComponentAudit.Proofs.Shift.Analysis
import ComponentAudit.Proofs.Finding.Script
import ComponentAudit.Proofs.Text.Reading
import ComponentAudit.Proofs.Finding.Component
import ComponentAudit.Proofs.Finding.Class
import ComponentAudit.Proofs.Finding.Evidence
import ComponentAudit.Proofs.Text.Lower
import ComponentAudit.Proofs.Project.Walk
import ComponentAudit.Proofs.Project.Discovery
import ComponentAudit.Proofs.Style.Catalog
import ComponentAudit.Proofs.Component.Pass
import ComponentAudit.Proofs.Component.Overlap
import ComponentAudit.Proofs.Component.Blanking
import ComponentAudit.Proofs.Script.Place
import ComponentAudit.Proofs.Style.Place
import ComponentAudit.Proofs.Text.Mask
import ComponentAudit.Proofs.Text.Position
import ComponentAudit.Proofs.Component.Location
import ComponentAudit.Proofs.Style.Descent
import ComponentAudit.Proofs.Style.Nesting
import ComponentAudit.Proofs.Usage.Order
import ComponentAudit.Proofs.Component.Settings
import ComponentAudit.Proofs.Text.Slice
import ComponentAudit.Proofs.Text.Line
import ComponentAudit.Proofs.Component.Markup
import ComponentAudit.Proofs.Usage.Listing
import ComponentAudit.Proofs.Json.RoundTrip
import ComponentAudit.Proofs.Report.Encode
import ComponentAudit.Proofs.Report.Json
import ComponentAudit.Proofs.Report.Csv
import ComponentAudit.Proofs.Project.Run
import ComponentAudit.Proofs.Report.Scan
import ComponentAudit.Proofs.History.Snapshot
import ComponentAudit.Proofs.History.Comparison
import ComponentAudit.Proofs.Program.Ending
import ComponentAudit.Proofs.Script.Declarator
import ComponentAudit.Proofs.Usage.Element
import ComponentAudit.Proofs.Usage.Expression
import ComponentAudit.Proofs.Style.Outline
import ComponentAudit.Proofs.Style.Group
import ComponentAudit.Proofs.Component.Conflict
import ComponentAudit.Proofs.Usage.Branch
import ComponentAudit.Proofs.Style.Classification
import ComponentAudit.Proofs.Style.Grouping
import ComponentAudit.Proofs.Style.SelectorList
import ComponentAudit.Proofs.Style.Concatenation
import ComponentAudit.Proofs.Style.RuleOrder
import ComponentAudit.Proofs.Component.Complement
import ComponentAudit.Proofs.Component.Leftmost
import ComponentAudit.Proofs.Script.Destructuring
import ComponentAudit.Proofs.Script.Export
import ComponentAudit.Proofs.Script.ImportOrder
import ComponentAudit.Proofs.Script.Dependency
import ComponentAudit.Proofs.Script.ImportClause
import ComponentAudit.Proofs.Script.Annotation
import ComponentAudit.Proofs.Component.Lines
import ComponentAudit.Proofs.History.Answer
import ComponentAudit.Proofs.Style.Literal
import ComponentAudit.Proofs.Project.Listing
import ComponentAudit.Proofs.Project.SameBut
import ComponentAudit.Proofs.Project.OwnSettings
import ComponentAudit.Proofs.Script.Closing
import ComponentAudit.Proofs.Style.Weight
import ComponentAudit.Proofs.Text.Blanked
import ComponentAudit.Proofs.Text.Run
import ComponentAudit.Proofs.Script.Literal
import ComponentAudit.Proofs.Script.TypeLiteral
import ComponentAudit.Proofs.Style.Pairing
