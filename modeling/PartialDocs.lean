import PartialDocs.Command.Arguments
import PartialDocs.Command.Basic
import PartialDocs.Command.Report
import PartialDocs.Command.Run
import PartialDocs.Command.Session
import PartialDocs.Comment.Leading
import PartialDocs.Comment.Marker
import PartialDocs.Compilation
import PartialDocs.Declaration.Head
import PartialDocs.Declaration.Outline
import PartialDocs.Declaration.Piece
import PartialDocs.DocId
import PartialDocs.Error
import PartialDocs.Files.Disk
import PartialDocs.Files.IgnoreLibrary
import PartialDocs.Files.Path
import PartialDocs.Files.SourceFilter
import PartialDocs.Files.Sources
import PartialDocs.Index.Arena
import PartialDocs.Index.Basic
import PartialDocs.Index.Builder
import PartialDocs.Index.Containers
import PartialDocs.JsonValue
import PartialDocs.Main
import PartialDocs.Merge
import PartialDocs.Proofs.Comment.Adjacency
import PartialDocs.Proofs.Comment.LineEndings
import PartialDocs.Proofs.Comment.LineScan
import PartialDocs.Proofs.Comment.Written
import PartialDocs.Proofs.Compilation.Asides
import PartialDocs.Proofs.Compilation.ByteOrderMark
import PartialDocs.Proofs.Compilation.ContainerForest
import PartialDocs.Proofs.Compilation.Handover
import PartialDocs.Proofs.Compilation.Likeness
import PartialDocs.Proofs.Compilation.Listing
import PartialDocs.Proofs.Compilation.NamespaceForms
import PartialDocs.Proofs.Compilation.PieceRoles
import PartialDocs.Proofs.Compilation.SourceOrder
import PartialDocs.Proofs.Compilation.TypeLookup
import PartialDocs.Proofs.Compilation.VerbatimPrefix
import PartialDocs.Proofs.Declaration.Asides
import PartialDocs.Proofs.Declaration.AtSigns
import PartialDocs.Proofs.Declaration.Likeness
import PartialDocs.Proofs.Declaration.Listing
import PartialDocs.Proofs.Declaration.Outline
import PartialDocs.Proofs.Declaration.Roles
import PartialDocs.Proofs.Declaration.Sections
import PartialDocs.Proofs.Declaration.Wording
import PartialDocs.Proofs.DocId.ByReference
import PartialDocs.Proofs.DocId.Clashes
import PartialDocs.Proofs.DocId.ConversionDirection
import PartialDocs.Proofs.DocId.ExplicitInterfaces
import PartialDocs.Proofs.DocId.FormalParameters
import PartialDocs.Proofs.DocId.Grouping
import PartialDocs.Proofs.DocId.Identity
import PartialDocs.Proofs.DocId.KeywordSpellings
import PartialDocs.Proofs.DocId.Likeness
import PartialDocs.Proofs.DocId.Listed
import PartialDocs.Proofs.DocId.Members
import PartialDocs.Proofs.DocId.NullableOverloads
import PartialDocs.Proofs.DocId.Overloads
import PartialDocs.Proofs.DocId.Paths
import PartialDocs.Proofs.DocId.ProperNames
import PartialDocs.Proofs.DocId.VerbatimNames
import PartialDocs.Proofs.Files.Discovery
import PartialDocs.Proofs.Files.Loading
import PartialDocs.Proofs.Files.PathOrder
import PartialDocs.Proofs.Files.Paths
import PartialDocs.Proofs.Files.Resolving
import PartialDocs.Proofs.Files.WalkLaws
import PartialDocs.Proofs.Index.Accounts
import PartialDocs.Proofs.Index.Addresses
import PartialDocs.Proofs.Index.Answers
import PartialDocs.Proofs.Index.Chain
import PartialDocs.Proofs.Index.Invariant
import PartialDocs.Proofs.Index.Likeness
import PartialDocs.Proofs.Index.ListedRun
import PartialDocs.Proofs.Index.Renumbering
import PartialDocs.Proofs.Index.Run
import PartialDocs.Proofs.Index.Sorting
import PartialDocs.Proofs.Index.Step
import PartialDocs.Proofs.Index.Tracking
import PartialDocs.Proofs.Resolution.Emission
import PartialDocs.Proofs.Resolution.Extension
import PartialDocs.Proofs.Resolution.Law
import PartialDocs.Proofs.Resolution.Merge
import PartialDocs.Proofs.Resolution.Reading
import PartialDocs.Proofs.Resolution.Reordering
import PartialDocs.Proofs.Resolution.Totality
import PartialDocs.Proofs.Settings.Layering
import PartialDocs.Proofs.Settings.Sections
import PartialDocs.Proofs.StandIn.DirectoryWalk
import PartialDocs.Proofs.StandIn.IgnoreRules
import PartialDocs.Proofs.StandIn.SettingsLibrary
import PartialDocs.Proofs.Syntax.Locating
import PartialDocs.Proofs.Syntax.Moving
import PartialDocs.Proofs.Syntax.Nodes
import PartialDocs.Proofs.Syntax.Relabelling
import PartialDocs.Proofs.Text.AtSigns
import PartialDocs.Proofs.Text.Brackets
import PartialDocs.Proofs.Text.Cuts
import PartialDocs.Proofs.Text.LineEndings
import PartialDocs.Proofs.Text.Stretches
import PartialDocs.Proofs.Text.Words
import PartialDocs.Proofs.TypeRef.Alphabet
import PartialDocs.Proofs.TypeRef.BuiltInNames
import PartialDocs.Proofs.TypeRef.Characters
import PartialDocs.Proofs.TypeRef.ElementNames
import PartialDocs.Proofs.TypeRef.Grammar
import PartialDocs.Proofs.TypeRef.JaggedArrays
import PartialDocs.Proofs.TypeRef.NormalForm
import PartialDocs.Proofs.TypeRef.Positions
import PartialDocs.Proofs.TypeRef.Printing
import PartialDocs.Proofs.TypeRef.Readability
import PartialDocs.Proofs.TypeRef.Renaming
import PartialDocs.Proofs.TypeRef.Separation
import PartialDocs.Proofs.TypeRef.Spacing
import PartialDocs.Proofs.TypeRef.Tokens
import PartialDocs.Proofs.TypeRef.VerbatimPrefix
import PartialDocs.Proofs.Xml.Decoding
import PartialDocs.Proofs.Xml.Indentation
import PartialDocs.Resolution
import PartialDocs.Settings.Basic
import PartialDocs.Settings.Store
import PartialDocs.Settings.TomlLibrary
import PartialDocs.StandIn.DirectoryWalk
import PartialDocs.StandIn.Glob
import PartialDocs.StandIn.IgnoreRules
import PartialDocs.StandIn.SettingsDecoding
import PartialDocs.StandIn.SettingsLibrary
import PartialDocs.StandIn.SettingsRendering
import PartialDocs.StandIn.Toml.Basic
import PartialDocs.StandIn.Toml.Document
import PartialDocs.StandIn.Toml.Numeral
import PartialDocs.StandIn.Toml.Quoted
import PartialDocs.Symbol.Basic
import PartialDocs.Symbol.Kind
import PartialDocs.Syntax.Lexeme
import PartialDocs.Syntax.Phrase
import PartialDocs.Syntax.Reader
import PartialDocs.Syntax.Tree
import PartialDocs.Text.Basic
import PartialDocs.Text.Blank
import PartialDocs.Text.CharRange
import PartialDocs.Text.Letter
import PartialDocs.Text.LowerCase
import PartialDocs.Text.Offset
import PartialDocs.TypeRef.Basic
import PartialDocs.TypeRef.Characters
import PartialDocs.TypeRef.Encoding
import PartialDocs.TypeRef.Parser
import PartialDocs.TypeRef.Spacing
import PartialDocs.TypeRef.Token
import PartialDocs.Xml.DocFile
import PartialDocs.Xml.Indent
