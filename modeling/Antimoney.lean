import Antimoney.Auth.Access
import Antimoney.Auth.Sessions
import Antimoney.Chart.Forest
import Antimoney.Chart.Placeholders
import Antimoney.Concurrent
import Antimoney.Concurrent.Bindings
import Antimoney.Concurrent.Cursors
import Antimoney.Concurrent.Cuts
import Antimoney.Concurrent.Disconnects
import Antimoney.Concurrent.Edits
import Antimoney.Concurrent.Imbalance
import Antimoney.Concurrent.Imports
import Antimoney.Concurrent.Links
import Antimoney.Concurrent.Quotas
import Antimoney.Concurrent.Tokens
import Antimoney.Concurrent.Updates
import Antimoney.Concurrent.Versions
import Antimoney.Csv.Cells
import Antimoney.Csv.Cents
import Antimoney.Csv.Reader
import Antimoney.Csv.Separators
import Antimoney.Db.Schema
import Antimoney.Db.Stmt
import Antimoney.Effects
import Antimoney.Floats
import Antimoney.Founding.Books
import Antimoney.Founding.Owners
import Antimoney.Founding.Registration
import Antimoney.Founding.Seeding
import Antimoney.Frontend.Dashboard
import Antimoney.Frontend.Reconcile
import Antimoney.Frontend.Register
import Antimoney.Frontend.Suggestion
import Antimoney.Frontend.Tree
import Antimoney.Gnc.Amount
import Antimoney.Gnc.Chain
import Antimoney.Gnc.Convert
import Antimoney.Gnc.Denominators
import Antimoney.Gnc.Numeric
import Antimoney.Gnc.Reduce
import Antimoney.GnuCash.Exact
import Antimoney.GnuCash.Parser
import Antimoney.Handlers.ImportExport
import Antimoney.Imports.Retry
import Antimoney.Imports.Returns
import Antimoney.Imports.Rows
import Antimoney.Issued
import Antimoney.Ledger.Accepts
import Antimoney.Ledger.Asked
import Antimoney.Ledger.Balance
import Antimoney.Ledger.Create
import Antimoney.Ledger.Import
import Antimoney.Ledger.Journal
import Antimoney.Ledger.Loops
import Antimoney.Ledger.States
import Antimoney.Ledger.Stored
import Antimoney.Ledger.TrialBalance
import Antimoney.Lib.Binary
import Antimoney.Lib.Branches
import Antimoney.Lib.Decides
import Antimoney.Lib.Euclid
import Antimoney.Lib.Forest
import Antimoney.Lib.Held
import Antimoney.Lib.Journal
import Antimoney.Lib.Log
import Antimoney.Lib.Pool
import Antimoney.Lib.Prog
import Antimoney.Lib.Redo
import Antimoney.Lib.Rounding
import Antimoney.Lib.Single
import Antimoney.Lib.Spacing
import Antimoney.Lib.Steps
import Antimoney.Lib.Survivors
import Antimoney.Lib.Table
import Antimoney.Lib.Tiles
import Antimoney.Lib.Totals
import Antimoney.Lib.Traverse
import Antimoney.Migrations.Rebuild
import Antimoney.Migrations.Scripts
import Antimoney.Plaid.Categories
import Antimoney.Plaid.Categorizer
import Antimoney.Plaid.Client
import Antimoney.Plaid.Crypto
import Antimoney.Plaid.Feed
import Antimoney.Plaid.Kept
import Antimoney.Plaid.Like
import Antimoney.Plaid.Listing
import Antimoney.Plaid.Pages
import Antimoney.Plaid.Pending
import Antimoney.Plaid.Recovery
import Antimoney.Plaid.Replay
import Antimoney.Plaid.Service
import Antimoney.Plaid.Staging
import Antimoney.Ratelimit
import Antimoney.Readers
import Antimoney.Reads
import Antimoney.Register.Answers
import Antimoney.Register.Entries
import Antimoney.Register.Exact
import Antimoney.Register.Order
import Antimoney.Register.Paging
import Antimoney.Register.Sums
import Antimoney.Register.Ties
import Antimoney.Register.Transfers
import Antimoney.Register.Tree
import Antimoney.Restore.Import
import Antimoney.Restore.Keyed
import Antimoney.Restore.Replace
import Antimoney.Restore.RoundTrip
import Antimoney.Restore.Rows
import Antimoney.Seed
import Antimoney.Server
import Antimoney.Services.AccountService
import Antimoney.Services.Register
import Antimoney.Services.SnapshotService
import Antimoney.Services.TransactionService
import Antimoney.Snapshots.Changes
import Antimoney.Snapshots.Clock
import Antimoney.Snapshots.Failures
import Antimoney.Snapshots.Scheduler
import Antimoney.Tenants.Apart
import Antimoney.Tenants.Requests
import Antimoney.Tenants.Rows
import Antimoney.Writes
import Antimoney.Imports.Csv
