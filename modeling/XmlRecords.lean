import XmlRecords.Command
import XmlRecords.Main
import XmlRecords.Mapping.Building
import XmlRecords.Proofs.XPath.Walking
import XmlRecords.Schema.Evaluation
import XmlRecords.Value.Encoding
import XmlRecords.Proofs.Duration.Reading
import XmlRecords.Proofs.Schema.NodeSets
import XmlRecords.Proofs.Schema.Reaching
import XmlRecords.Proofs.XPath.Axes
import XmlRecords.Proofs.XPath.Parentheses
import XmlRecords.Proofs.XPath.Typing
import XmlRecords.Proofs.XPath.Printing
import XmlRecords.Proofs.Binary64.Whole
import XmlRecords.Proofs.Text.Reading
import XmlRecords.Proofs.XPath.Words
import XmlRecords.Proofs.XPath.Ends
import XmlRecords.Proofs.XPath.Paths
import XmlRecords.Proofs.XPath.Primary
import XmlRecords.Proofs.XPath.Precedence
import XmlRecords.Proofs.XPath.RoundTrip
import XmlRecords.Proofs.Duration.Compiling
import XmlRecords.Proofs.Duration.Writing
import XmlRecords.Proofs.Record
import XmlRecords.Proofs.Schema.Building
import XmlRecords.Proofs.Schema.History
import XmlRecords.Proofs.Schema.PublicFields
import XmlRecords.Proofs.Schema.Visibility
import XmlRecords.Proofs.Schema.Totality
import XmlRecords.Proofs.XPath.ShortCircuit
import XmlRecords.Proofs.Schema.ContextNodes
import XmlRecords.Proofs.Schema.DeclarationOrder
import XmlRecords.Proofs.Schema.Privacy
import XmlRecords.Proofs.XPath.Focus
import XmlRecords.Proofs.XPath.PathForm
import XmlRecords.Proofs.XPath.Abbreviation
import XmlRecords.Proofs.Schema.DerivedPaths
import XmlRecords.Proofs.Value.Encoding
import XmlRecords.Proofs.Duration.Rendering
import XmlRecords.Proofs.Duration.Segments
import XmlRecords.Proofs.Duration.Refusals
import XmlRecords.Proofs.Schema.Refusals
import XmlRecords.Proofs.Mapping.Refusals
import XmlRecords.Proofs.Duration.Balance
import XmlRecords.Proofs.Duration.Merging
import XmlRecords.Proofs.Duration.Seconds
import XmlRecords.Proofs.XPath.Positions
import XmlRecords.Proofs.XPath.Comparisons
import XmlRecords.Proofs.XPath.Descendants
import XmlRecords.Proofs.XPath.Acceptance
import XmlRecords.Proofs.Schema.Unions
import XmlRecords.Proofs.Schema.Defaults
import XmlRecords.Proofs.Text.LenientIntegers
import XmlRecords.Proofs.Text.LenientReals
import XmlRecords.Proofs.Text.Longest
import XmlRecords.Proofs.Value.RoundTrip
import XmlRecords.Proofs.Schema.Placement
import XmlRecords.Proofs.Text.Singulars
import XmlRecords.Proofs.XPath.StringValues
import XmlRecords.Proofs.Xml.Names
import XmlRecords.Proofs.Xml.Invariants
import XmlRecords.Proofs.Xml.Values
import XmlRecords.Proofs.Xml.Attributes
import XmlRecords.Proofs.Xml.Markup
import XmlRecords.Proofs.XPath.Numbers
import XmlRecords.Proofs.XPath.NormalizedSpace
import XmlRecords.Proofs.Record.History
import XmlRecords.Proofs.XPath.Consumption
import XmlRecords.Proofs.XPath.Descent
import XmlRecords.Proofs.Duration.Texts
