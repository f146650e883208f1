import QueryKit.Command.Write
import QueryKit.Fetch.Pages
import QueryKit.Manager
import QueryKit.Proofs.Boolean.Chain
import QueryKit.Proofs.Cache.Memory
import QueryKit.Proofs.Cache.Reads
import QueryKit.Proofs.Cache.Recency
import QueryKit.Proofs.Closures.Nested
import QueryKit.Proofs.Closures.Unclosed
import QueryKit.Proofs.Command.Answers
import QueryKit.Proofs.Command.Attempts
import QueryKit.Proofs.Command.Freshness
import QueryKit.Proofs.Command.Inlined
import QueryKit.Proofs.Command.Served
import QueryKit.Proofs.Compile.Accumulator
import QueryKit.Proofs.Compile.Alias
import QueryKit.Proofs.Compile.FromItem
import QueryKit.Proofs.Compile.Yields
import QueryKit.Proofs.Condition.Canonical
import QueryKit.Proofs.Condition.SinglePass
import QueryKit.Proofs.Condition.Substring
import QueryKit.Proofs.Connections.Cancelled
import QueryKit.Proofs.Connections.Reconnect
import QueryKit.Proofs.Connections.Selection
import QueryKit.Proofs.Connections.ShortDsn
import QueryKit.Proofs.Dialect.ColumnType
import QueryKit.Proofs.Fetch.UnionPages
import QueryKit.Proofs.Filter.Compiled
import QueryKit.Proofs.Key.ResultKey
import QueryKit.Proofs.Placeholder.Alignment
import QueryKit.Proofs.Placeholder.ComputedColumn
import QueryKit.Proofs.Placeholder.Identifier
import QueryKit.Proofs.Placeholder.Resolution
import QueryKit.Proofs.Placeholder.StringLiteral
import QueryKit.Proofs.Query.JoinWords
import QueryKit.Proofs.Query.Select
import QueryKit.Proofs.Rows.Columns
import QueryKit.Proofs.Rows.Keyed
import QueryKit.Proofs.Schema.Cast
import QueryKit.Proofs.Search.Conditions
import QueryKit.Proofs.Search.Integers
import QueryKit.Proofs.Search.Lists
import QueryKit.Proofs.Search.Pages
import QueryKit.Proofs.Separator.Filter
import QueryKit.Proofs.Session.Meets
import QueryKit.Proofs.Session.Sends
import QueryKit.Proofs.Share.Flights
import QueryKit.Proofs.Tokens.Complete
import QueryKit.Proofs.Tokens.Wrappers
import QueryKit.Proofs.Transaction.Failures
import QueryKit.Proofs.Transaction.Holding
import QueryKit.Proofs.Transaction.Levels
import QueryKit.Proofs.Transaction.Links
import QueryKit.Proofs.Transaction.Program
import QueryKit.Proofs.Transaction.Refinement
import QueryKit.Proofs.Transaction.Savepoints
import QueryKit.Proofs.Transaction.Server
import QueryKit.Proofs.Transaction.Standing
import QueryKit.Proofs.Upsert.Clause
import QueryKit.Proofs.Where.Nested
import QueryKit.Query.Describe
import QueryKit.Schema.Document
import QueryKit.Search.Page
import QueryKit.Session.Recorder
import QueryKit.Share.Read
