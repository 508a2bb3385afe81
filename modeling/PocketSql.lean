import PocketSql.CommandLine
import PocketSql.Console.Command
import PocketSql.Console.Dialogue
import PocketSql.Console.Folder
import PocketSql.Console.History
import PocketSql.Console.Render
import PocketSql.Console.Session
import PocketSql.Console.Typing
import PocketSql.Json
import PocketSql.Main
import PocketSql.Number
import PocketSql.Number.Decimal
import PocketSql.Number.Rounding
import PocketSql.Number.Shortest
import PocketSql.Query.Condition
import PocketSql.Query.Engine
import PocketSql.Query.Execution
import PocketSql.Query.Join
import PocketSql.Query.Result
import PocketSql.Sql.Error
import PocketSql.Sql.Keyword
import PocketSql.Sql.Statement
import PocketSql.Sql.Statement.Parser
import PocketSql.Sql.Token
import PocketSql.Sql.Token.Lexer
import PocketSql.Sql.Token.Progress
import PocketSql.Sql.Tokens
import PocketSql.Store.Database
import PocketSql.Store.Error
import PocketSql.Store.Index
import PocketSql.Store.Row
import PocketSql.Store.Schema
import PocketSql.Store.Table
import PocketSql.Store.TypeName
import PocketSql.Text.Alphabetic
import PocketSql.Text.Blank
import PocketSql.Text.BreakClass
import PocketSql.Text.Cased
import PocketSql.Text.Casing
import PocketSql.Text.Clusters
import PocketSql.Text.Lines
import PocketSql.Text.Numeric
import PocketSql.Text.Ranges
import PocketSql.Value
import PocketSql.Proofs.Store.Entries
import PocketSql.Proofs.Store.Fit
import PocketSql.Proofs.Store.Consistency
import PocketSql.Proofs.Store.Mutation
import PocketSql.Proofs.Store.Exactness
import PocketSql.Proofs.Store.Validity
import PocketSql.Proofs.Query.Atomicity
import PocketSql.Proofs.Sql.Grammar
import PocketSql.Proofs.Sql.Reading
import PocketSql.Proofs.Sql.Recognition
import PocketSql.Proofs.Number.Nearest
import PocketSql.Proofs.Number.ReadBack
import PocketSql.Proofs.Sql.Lexicon
import PocketSql.Proofs.Sql.Printing
import PocketSql.Proofs.Sql.Lexing
import PocketSql.Proofs.Sql.RoundTrip
import PocketSql.Proofs.Sql.Lexemes
import PocketSql.Proofs.Sql.Continuation
import PocketSql.Proofs.Sql.Script
import PocketSql.Proofs.Query.Succession
import PocketSql.Proofs.Sql.ValuePlaces
import PocketSql.Proofs.Sql.ValueTokens
import PocketSql.Proofs.Sql.Renaming
import PocketSql.Proofs.Sql.Places
import PocketSql.Proofs.Sql.Respelling
import PocketSql.Proofs.Sql.Words
import PocketSql.Proofs.Query.Effects
import PocketSql.Proofs.Query.Standing
import PocketSql.Proofs.Query.References
import PocketSql.Proofs.Query.Filtering
import PocketSql.Proofs.Query.Resolution
import PocketSql.Proofs.Query.Selection
import PocketSql.Proofs.Query.Naming
import PocketSql.Proofs.Query.Insertion
import PocketSql.Proofs.Number.Order
import PocketSql.Proofs.Query.Agreement
import PocketSql.Proofs.Query.Coherence
import PocketSql.Proofs.Query.Joining
import PocketSql.Proofs.Query.Commutation
import PocketSql.Proofs.Query.Description
import PocketSql.Proofs.Query.Accesses
import PocketSql.Proofs.Console.Feeding
import PocketSql.Proofs.Store.Assignment
import PocketSql.Proofs.Store.Clash
import PocketSql.Proofs.Store.Admission
import PocketSql.Proofs.Query.Repetition
import PocketSql.Proofs.Store.Strictness
import PocketSql.Proofs.Query.Partners
import PocketSql.Proofs.Query.Symmetry
import PocketSql.Proofs.Sql.Separation
import PocketSql.Proofs.Console.Reloading
import PocketSql.Proofs.Console.Alignment
import PocketSql.Proofs.Number.JsonText
import PocketSql.Proofs.Json.Shape
import PocketSql.Proofs.Console.Lossless
import PocketSql.Proofs.Store.Multimap
import PocketSql.Proofs.Sql.Turns
import PocketSql.Proofs.Sql.Coverage
