import SymbolIndex.Digest.Blake3
import SymbolIndex.Editor.Answer
import SymbolIndex.Editor.Fetches
import SymbolIndex.Editor.Number
import SymbolIndex.Editor.Request
import SymbolIndex.Editor.Session
import SymbolIndex.Editor.Tables
import SymbolIndex.Editor.Value
import SymbolIndex.Entry
import SymbolIndex.Error
import SymbolIndex.Exclusion.Glob
import SymbolIndex.Exclusion.Matcher
import SymbolIndex.Exclusion.Rules
import SymbolIndex.FileTree.Basic
import SymbolIndex.FileTree.Walk
import SymbolIndex.Index.Basic
import SymbolIndex.Index.Rebuild
import SymbolIndex.Layout
import SymbolIndex.Location
import SymbolIndex.OsError
import SymbolIndex.Path
import SymbolIndex.Pattern.Basic
import SymbolIndex.Pattern.Property
import SymbolIndex.Pattern.Reader
import SymbolIndex.Pattern.Search
import SymbolIndex.Plan.Execute
import SymbolIndex.Plan.Predicate
import SymbolIndex.Plan.Ranking
import SymbolIndex.Preview
import SymbolIndex.Query.Clause
import SymbolIndex.Query.Tokens
import SymbolIndex.Serializer.Basic
import SymbolIndex.Serializer.Client
import SymbolIndex.Serializer.Owner
import SymbolIndex.Serializer.Threads
import SymbolIndex.Settings.Basic
import SymbolIndex.Settings.Reader
import SymbolIndex.Shell.Command
import SymbolIndex.Shell.Lexeme
import SymbolIndex.Shell.Output
import SymbolIndex.Shell.Run
import SymbolIndex.Shell.Session
import SymbolIndex.Shell.Tools
import SymbolIndex.Sources.Content
import SymbolIndex.Sources.Scanner
import SymbolIndex.Store.Basic
import SymbolIndex.Store.Disk
import SymbolIndex.Store.Table
import SymbolIndex.Tags.Kinds
import SymbolIndex.Tags.Line
import SymbolIndex.Text.Ascii
import SymbolIndex.Text.Blank
import SymbolIndex.Text.Categories
import SymbolIndex.Text.Classes
import SymbolIndex.Text.Lossy
import SymbolIndex.Text.Quoted
import SymbolIndex.Text.WritingSystems
import SymbolIndex.Toml.Document
import SymbolIndex.Toml.Scalar
import SymbolIndex.Toml.Value
import SymbolIndex.Proofs.Serializer.Requests
import SymbolIndex.Proofs.Serializer.Turns
import SymbolIndex.Proofs.Serializer.Run
import SymbolIndex.Proofs.Serializer.Endings
import SymbolIndex.Proofs.Serializer.Order
import SymbolIndex.Proofs.Serializer.Cancellation
import SymbolIndex.Proofs.Query.RoundTrip
import SymbolIndex.Proofs.Query.Parts
import SymbolIndex.Proofs.Search.Matching
import SymbolIndex.Proofs.Search.Positions
import SymbolIndex.Proofs.Search.Ranked
import SymbolIndex.Proofs.Search.Wanted
import SymbolIndex.Proofs.Search.Answer
import SymbolIndex.Proofs.Search.Interruption
import SymbolIndex.Proofs.Search.Reordering
import SymbolIndex.Proofs.Search.Narrowing
import SymbolIndex.Proofs.Search.Clauses
import SymbolIndex.Proofs.Search.Beginnings
import SymbolIndex.Proofs.Search.Everything
import SymbolIndex.Proofs.Serializer.Scripts
import SymbolIndex.Proofs.FileTree.Growth
import SymbolIndex.Proofs.Exclusion.Verdicts
import SymbolIndex.Proofs.FileTree.Walks
import SymbolIndex.Proofs.Store.Opening
import SymbolIndex.Proofs.Store.Replace
import SymbolIndex.Proofs.Store.Breakdown
import SymbolIndex.Proofs.Store.Runs
import SymbolIndex.Proofs.Store.Kinds
import SymbolIndex.Proofs.Store.Consistency
import SymbolIndex.Proofs.Store.Rollback
import SymbolIndex.Proofs.Serializer.Work
import SymbolIndex.Proofs.Index.Runs
import SymbolIndex.Proofs.Index.Generations
import SymbolIndex.Proofs.Index.Uses
import SymbolIndex.Proofs.Index.Searches
import SymbolIndex.Proofs.Editor.Fetches
import SymbolIndex.Proofs.Index.Rebuilds
import SymbolIndex.Proofs.Serializer.Counts
import SymbolIndex.Proofs.Serializer.Accounts
import SymbolIndex.Proofs.Serializer.Differences
import SymbolIndex.Proofs.Serializer.Finales
import SymbolIndex.Proofs.Serializer.Abreast
import SymbolIndex.Proofs.Serializer.Isolation
import SymbolIndex.Proofs.Serializer.Forgetting
import SymbolIndex.Proofs.Serializer.Timeouts
import SymbolIndex.Proofs.Serializer.Inside
import SymbolIndex.Proofs.Serializer.Reentry
import SymbolIndex.Proofs.Text.Lines
import SymbolIndex.Proofs.Path.Below
import SymbolIndex.Proofs.Sources.Shown
import SymbolIndex.Proofs.Sources.Previews
import SymbolIndex.Proofs.Sources.Storable
import SymbolIndex.Proofs.Tags.ByLine
import SymbolIndex.Proofs.Tags.Omitted
import SymbolIndex.Proofs.Tags.Reading
import SymbolIndex.Proofs.Entry.Texts
import SymbolIndex.Proofs.Location.Reading
import SymbolIndex.Proofs.Location.Escapes
import SymbolIndex.Proofs.Location.Patterns
import SymbolIndex.Proofs.Serializer.Errors
import SymbolIndex.Proofs.Threads.Runs
import SymbolIndex.Proofs.Threads.Locks
import SymbolIndex.Proofs.Threads.Places
import SymbolIndex.Proofs.Threads.Stations
import SymbolIndex.Proofs.Threads.Moments
import SymbolIndex.Proofs.Threads.Accounts
import SymbolIndex.Proofs.Threads.Order
import SymbolIndex.Proofs.Threads.Losses
import SymbolIndex.Proofs.Threads.History
import SymbolIndex.Proofs.Threads.Draining
import SymbolIndex.Proofs.Threads.Desks
import SymbolIndex.Proofs.Threads.Balance
import SymbolIndex.Proofs.Threads.Interrupts
import SymbolIndex.Proofs.Threads.Replies
import SymbolIndex.Proofs.Threads.Cancelling
import SymbolIndex.Proofs.Threads.Undisturbed
import SymbolIndex.Proofs.Threads.OneByOne
import SymbolIndex.Proofs.Index.Errors
import SymbolIndex.Proofs.Editor.Sessions
import SymbolIndex.Proofs.Editor.Calls
import SymbolIndex.Proofs.Editor.Tickets
import SymbolIndex.Proofs.Editor.HandedBack
import SymbolIndex.Proofs.Path.Return
import SymbolIndex.Proofs.Path.Order
import SymbolIndex.Proofs.Store.Insertion
import SymbolIndex.Proofs.Layout.Jumps
import SymbolIndex.Proofs.FileTree.Pruning
import SymbolIndex.Proofs.FileTree.Changes
import SymbolIndex.Proofs.FileTree.Listing
import SymbolIndex.Proofs.Outcomes
