import Typesheet.Declaration.Save
import Typesheet.Schema.Client
import Typesheet.Settings.Basic
import Typesheet.Source.Directory
import Typesheet.Session.Basic
import Typesheet.Proofs.Load.Link
import Typesheet.Proofs.ColumnType.Stub
import Typesheet.Proofs.Load.Walk
import Typesheet.Proofs.Load.Success
import Typesheet.Proofs.Load.Visits
import Typesheet.Proofs.Load.Declared
import Typesheet.Proofs.Load.Standalone
import Typesheet.Proofs.Issue.Branches
import Typesheet.Proofs.Load.Failure
import Typesheet.Proofs.Load.Forest
import Typesheet.Proofs.Load.Changing
import Typesheet.Proofs.Load.Deep
import Typesheet.Proofs.Declaration.Usage
import Typesheet.Proofs.Declaration.Interfaces
import Typesheet.Proofs.Declaration.Document
import Typesheet.Proofs.Expression.Passes
import Typesheet.Proofs.Address.Characters
import Typesheet.Proofs.ColumnType.Grammar
import Typesheet.Proofs.ColumnType.Leaf
import Typesheet.Proofs.ColumnType.Reading
import Typesheet.Proofs.Expression.Pieces
import Typesheet.Proofs.Declaration.Names
import Typesheet.Proofs.Load.Locality
import Typesheet.Proofs.Load.Kinds
import Typesheet.Proofs.Json.Spelling
import Typesheet.Proofs.Json.Record
import Typesheet.Proofs.Issue.Json
import Typesheet.Proofs.ColumnType.Json
import Typesheet.Proofs.Namespace.Json
import Typesheet.Proofs.Schema.Json
import Typesheet.Proofs.Load.Selection
import Typesheet.Proofs.Declaration.Selection
import Typesheet.Proofs.Declaration.Base
import Typesheet.Proofs.Source.Path
import Typesheet.Proofs.Source.Catalogue
import Typesheet.Proofs.Load.Interchange
import Typesheet.Proofs.Load.DepthLimit
import Typesheet.Proofs.Load.Filling
import Typesheet.Proofs.Session.History
import Typesheet.Proofs.Expression.Balance
import Typesheet.Proofs.ColumnType.Requoted
import Typesheet.Proofs.ColumnType.Literals
import Typesheet.Proofs.Issue.Enclosing
import Typesheet.Proofs.Load.Cycle
import Typesheet.Proofs.ColumnType.Choices
import Typesheet.Proofs.Declaration.TypeText
import Typesheet.Proofs.ColumnType.Marker
import Typesheet.Proofs.Address.Reader
import Typesheet.Proofs.Address.Grammar
import Typesheet.Proofs.ColumnType.Recognition
import Typesheet.Proofs.Load.Readable
import Typesheet.Proofs.Expression.Gaps
import Typesheet.Proofs.ColumnType.Nodes
import Typesheet.Proofs.Address.Typename
import Typesheet.Proofs.Declaration.Saving
import Typesheet.Proofs.Column.Number
import Typesheet.Proofs.Declaration.IssueLines
import Typesheet.Proofs.Declaration.Key
import Typesheet.Proofs.Declaration.Identifier
import Typesheet.Proofs.Expression.Resplit
import Typesheet.Proofs.Declaration.BlockComment
import Typesheet.Proofs.Declaration.SuggestedName
