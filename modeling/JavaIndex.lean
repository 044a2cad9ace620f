import JavaIndex.Classpath.Archive
import JavaIndex.Classpath.ClassInfo
import JavaIndex.Classpath.Manifest
import JavaIndex.Classpath.Platform
import JavaIndex.Classpath.ResourceCache
import JavaIndex.Classpath.Resources
import JavaIndex.Classpath.Table
import JavaIndex.Config
import JavaIndex.Environment.Basic
import JavaIndex.Environment.Hierarchy
import JavaIndex.Environment.Members
import JavaIndex.Environment.Outline
import JavaIndex.Environment.TypeNames
import JavaIndex.Environment.ValueNames
import JavaIndex.Imports
import JavaIndex.Index.Diagnostic
import JavaIndex.Index.Document
import JavaIndex.Index.Emission
import JavaIndex.Index.Occurrence
import JavaIndex.Index.Signature
import JavaIndex.Index.Snapshot
import JavaIndex.JavaType.Basic
import JavaIndex.JavaType.Operators
import JavaIndex.JavaType.Reader
import JavaIndex.Json.Basic
import JavaIndex.Json.Decode
import JavaIndex.Json.Printer
import JavaIndex.Json.Reader
import JavaIndex.Overload
import JavaIndex.Parser.Basic
import JavaIndex.Parser.Decls
import JavaIndex.Parser.Exprs
import JavaIndex.Parser.Grammar
import JavaIndex.Parser.Stmts
import JavaIndex.Parser.Types
import JavaIndex.Parser.Unit
import JavaIndex.Project.Build
import JavaIndex.Project.Classes
import JavaIndex.Project.FileId
import JavaIndex.Project.FileTree
import JavaIndex.Project.Path
import JavaIndex.Project.Run
import JavaIndex.Project.SourceRoot
import JavaIndex.Resolve.Basic
import JavaIndex.Resolve.Calls
import JavaIndex.Resolve.LocalClasses
import JavaIndex.Resolve.Members
import JavaIndex.Resolve.Names
import JavaIndex.Resolve.Unit
import JavaIndex.Resolve.Walk
import JavaIndex.Scope.Basic
import JavaIndex.Symbol.Basic
import JavaIndex.Symbol.LocalIds
import JavaIndex.Symbol.Naming
import JavaIndex.Text.Blank
import JavaIndex.Text.Dotted
import JavaIndex.Text.Identifier
import JavaIndex.Text.IdentifierTable
import JavaIndex.Text.LineIndex
import JavaIndex.Text.Lists
import JavaIndex.Text.Position
import JavaIndex.Text.Rank
import JavaIndex.Text.Span
import JavaIndex.Token.Basic
import JavaIndex.Token.DocComment
import JavaIndex.Token.Lexer
import JavaIndex.Token.Number
import JavaIndex.Tree.Basic
import JavaIndex.Tree.Name
import JavaIndex.Tree.WrittenType
import JavaIndex.Proofs.Classpath.InsertOnce
import JavaIndex.Proofs.Classpath.Listings
import JavaIndex.Proofs.Classpath.Memory
import JavaIndex.Proofs.Classpath.Merging
import JavaIndex.Proofs.Classpath.Packages
import JavaIndex.Proofs.Classpath.Resources
import JavaIndex.Proofs.Environment.Hierarchy
import JavaIndex.Proofs.Environment.Imported
import JavaIndex.Proofs.Environment.Instances
import JavaIndex.Proofs.Index.Repetitions
import JavaIndex.Proofs.Index.Overlaps
import JavaIndex.Proofs.JavaType.RoundTrip
import JavaIndex.Proofs.JavaType.Spelling
import JavaIndex.Proofs.JavaType.Substitution
import JavaIndex.Proofs.Overload.Ranking
import JavaIndex.Proofs.Parser.Decls
import JavaIndex.Proofs.Parser.Faithful.Unit
import JavaIndex.Proofs.Parser.Grouping
import JavaIndex.Proofs.Parser.Progress.Unit
import JavaIndex.Proofs.Parser.TypeRoundTrip
import JavaIndex.Proofs.Parser.Unit
import JavaIndex.Proofs.Project.Definitions
import JavaIndex.Proofs.Project.Facades
import JavaIndex.Proofs.Project.Libraries
import JavaIndex.Proofs.Project.LocalNames
import JavaIndex.Proofs.Project.Mentions
import JavaIndex.Proofs.Project.Numbering
import JavaIndex.Proofs.Project.Reports
import JavaIndex.Proofs.Project.Runs
import JavaIndex.Proofs.Project.SameWords
import JavaIndex.Proofs.Project.SourceRoot
import JavaIndex.Proofs.Symbol.Grammar
import JavaIndex.Proofs.Symbol.Identifiers
import JavaIndex.Proofs.Symbol.Text
import JavaIndex.Proofs.Resolve.Balance
import JavaIndex.Proofs.Resolve.BalanceSteps
import JavaIndex.Proofs.Resolve.BalanceTraversal
import JavaIndex.Proofs.Resolve.ExpressionTypes
import JavaIndex.Proofs.Resolve.QualifiedNames
import JavaIndex.Proofs.Resolve.TypeSegments
import JavaIndex.Proofs.Resolve.WrittenTypes
import JavaIndex.Proofs.Token.DocComment
import JavaIndex.Proofs.Token.Spaced
