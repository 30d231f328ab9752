import Accessibility.Attribute
import Accessibility.Capacity
import Accessibility.Capture
import Accessibility.ChangeSet
import Accessibility.CommandLine.Arguments
import Accessibility.CommandLine.Command
import Accessibility.CommandLine.Program
import Accessibility.Decimal.Notation
import Accessibility.Decimal.Shortest
import Accessibility.Dictionary
import Accessibility.Element.Basic
import Accessibility.Element.Json
import Accessibility.Files.Basic
import Accessibility.Files.Tree
import Accessibility.Json.Basic
import Accessibility.Json.Fields
import Accessibility.Json.Layout
import Accessibility.Json.Lexer
import Accessibility.Json.Numeral
import Accessibility.Json.Reader
import Accessibility.Main
import Accessibility.Menu.Cache
import Accessibility.Menu.File
import Accessibility.Menu.Hierarchy
import Accessibility.Menu.Path
import Accessibility.Menu.Search
import Accessibility.Path.Basic
import Accessibility.Path.Error
import Accessibility.Path.Generation
import Accessibility.Path.Parser
import Accessibility.Path.Segment
import Accessibility.Proofs.Dictionary
import Accessibility.Proofs.Element.Scope
import Accessibility.Proofs.Element.Tree
import Accessibility.Proofs.Menu.RecentMenus
import Accessibility.Proofs.OrderedMap
import Accessibility.Proofs.Path.Acceptance
import Accessibility.Proofs.Path.Generation
import Accessibility.Proofs.Path.Grammar
import Accessibility.Proofs.Path.Predicates
import Accessibility.Proofs.Path.Reading
import Accessibility.Proofs.Path.RoundTrip
import Accessibility.Proofs.Path.Splitting
import Accessibility.Proofs.Recency
import Accessibility.Proofs.Resolution.Generated
import Accessibility.Proofs.Resolution.Siblings
import Accessibility.Proofs.Resolution.Walk
import Accessibility.Proofs.Service.Snapshot
import Accessibility.Recency
import Accessibility.Resolution.Level
import Accessibility.Resolution.Report
import Accessibility.Resolution.Resolver
import Accessibility.Scope
import Accessibility.Service
import Accessibility.Settings.Basic
import Accessibility.Settings.File
import Accessibility.Settings.Location
import Accessibility.Snapshot
import Accessibility.Text.Blank
import Accessibility.Text.CaseTables
import Accessibility.Text.Digits
import Accessibility.Text.EditDistance
import Accessibility.Text.LowerCase
import Accessibility.Text.Search
import Accessibility.Time
import Accessibility.Token.Basic
import Accessibility.Token.Cache
import Accessibility.Toml.Basic
import Accessibility.Toml.Lexer
import Accessibility.Toml.Reader
import Accessibility.Toml.Scalar
import Accessibility.Proofs.Menu.Refinement
import Accessibility.Proofs.Token.Encoding
import Accessibility.Proofs.Token.Bijection
import Accessibility.Proofs.ChangeSet
import Accessibility.Proofs.Path.Distinct
import Accessibility.Proofs.Snapshot.Generated
import Accessibility.Proofs.Token.Runs
import Accessibility.Proofs.Menu.Inclusion
import Accessibility.Proofs.Menu.History
import Accessibility.Proofs.Token.History
import Accessibility.Proofs.Resolution.Repairs
import Accessibility.Proofs.Resolution.Trace
import Accessibility.Proofs.Resolution.Ambiguity
import Accessibility.Proofs.Token.Order
import Accessibility.Proofs.Resolution.Exhaustive
import Accessibility.Proofs.Resolution.Limits
import Accessibility.Proofs.Service.Reachable
import Accessibility.Proofs.Service.Menus
import Accessibility.Proofs.Element.Normal
import Accessibility.Proofs.Element.NormalForm
import Accessibility.Proofs.Path.Above
import Accessibility.Proofs.Snapshot.Ancestry
import Accessibility.Proofs.Element.Pruning
import Accessibility.Proofs.Element.Symmetry
import Accessibility.Proofs.Snapshot.Listing
import Accessibility.Proofs.Text.ByteOrder
import Accessibility.Proofs.ChangeSet.Reversal
import Accessibility.Proofs.Path.Identity
import Accessibility.Proofs.ChangeSet.Identity
import Accessibility.Proofs.Resolution.Budget
import Accessibility.Proofs.Resolution.Way
import Accessibility.Proofs.Resolution.Advice
import Accessibility.Proofs.Resolution.Independence
import Accessibility.Proofs.Menu.Acceptance
import Accessibility.Proofs.Menu.Lookup
import Accessibility.Proofs.Menu.Search
import Accessibility.Proofs.Text.EditDistance
import Accessibility.Proofs.Menu.Ranking
import Accessibility.Proofs.Time
import Accessibility.Proofs.Menu.Expiry
import Accessibility.Proofs.Path.Truncation
import Accessibility.Proofs.Resolution.Application
import Accessibility.Proofs.Token.Base64
import Accessibility.Proofs.Resolution.Scope
import Accessibility.Proofs.Resolution.Diagnosis
import Accessibility.Proofs.Resolution.Spelling
import Accessibility.Proofs.Menu.Accounting
import Accessibility.Proofs.Element.Frontmost
import Accessibility.Proofs.Recency.MoveToFront
import Accessibility.Proofs.Path.Pieces
import Accessibility.Proofs.Time.Parts
