import NamedSql.Backend
import NamedSql.Backend.KeyTable
import NamedSql.Backend.KeyTable.Command
import NamedSql.Backend.KeyTable.Database
import NamedSql.Backend.KeyTable.Pattern
import NamedSql.Backend.Library
import NamedSql.Backend.Prepared
import NamedSql.Backend.Script
import NamedSql.Binary64
import NamedSql.Binary64.Decimal
import NamedSql.Binary64.Shortest
import NamedSql.Bindings
import NamedSql.Calendar
import NamedSql.Calendar.Written
import NamedSql.Catalog
import NamedSql.Cursor
import NamedSql.Event
import NamedSql.Failure
import NamedSql.Flow
import NamedSql.Hook
import NamedSql.Json
import NamedSql.Json.Spelling
import NamedSql.Like
import NamedSql.Memo
import NamedSql.Memo.Action
import NamedSql.Page
import NamedSql.Power
import NamedSql.Proofs.Aftermath
import NamedSql.Proofs.Atomic
import NamedSql.Proofs.Batch
import NamedSql.Proofs.Bodies
import NamedSql.Proofs.ByteOrder
import NamedSql.Proofs.Carried
import NamedSql.Proofs.Clocked
import NamedSql.Proofs.Closing
import NamedSql.Proofs.Completing
import NamedSql.Proofs.DayNumbers
import NamedSql.Proofs.Deadline
import NamedSql.Proofs.Delivery
import NamedSql.Proofs.Digits
import NamedSql.Proofs.Direct
import NamedSql.Proofs.Documents
import NamedSql.Proofs.Embedded
import NamedSql.Proofs.EpochMillis
import NamedSql.Proofs.Escapes
import NamedSql.Proofs.Exactness
import NamedSql.Proofs.Executed
import NamedSql.Proofs.Extensional
import NamedSql.Proofs.Fifo
import NamedSql.Proofs.Flow
import NamedSql.Proofs.Forms
import NamedSql.Proofs.Fresh
import NamedSql.Proofs.FullNames
import NamedSql.Proofs.Grammar
import NamedSql.Proofs.Groups
import NamedSql.Proofs.Handles.Calls
import NamedSql.Proofs.Handles.Run
import NamedSql.Proofs.Handles.Session
import NamedSql.Proofs.Handles.Statement
import NamedSql.Proofs.Handles.Workbench
import NamedSql.Proofs.Holding
import NamedSql.Proofs.KeyTables
import NamedSql.Proofs.Law
import NamedSql.Proofs.Lawful
import NamedSql.Proofs.Layouts
import NamedSql.Proofs.Ledger
import NamedSql.Proofs.Likeness.Calls
import NamedSql.Proofs.Likeness.Run
import NamedSql.Proofs.Likeness.Session
import NamedSql.Proofs.Likeness.Statement
import NamedSql.Proofs.Likeness.Workbench
import NamedSql.Proofs.Limits
import NamedSql.Proofs.Listings
import NamedSql.Proofs.Loads
import NamedSql.Proofs.Lookups
import NamedSql.Proofs.Matching
import NamedSql.Proofs.Nesting
import NamedSql.Proofs.Noting
import NamedSql.Proofs.Offsets
import NamedSql.Proofs.Pages
import NamedSql.Proofs.Parse
import NamedSql.Proofs.Parts
import NamedSql.Proofs.Placeholders
import NamedSql.Proofs.Positional
import NamedSql.Proofs.Positions
import NamedSql.Proofs.Quotes
import NamedSql.Proofs.Ranges
import NamedSql.Proofs.Recall
import NamedSql.Proofs.Recording
import NamedSql.Proofs.Reflexive
import NamedSql.Proofs.Resources
import NamedSql.Proofs.Reuse
import NamedSql.Proofs.Rewriting
import NamedSql.Proofs.Roster
import NamedSql.Proofs.Sameness
import NamedSql.Proofs.Savepoints
import NamedSql.Proofs.Scripted
import NamedSql.Proofs.Secrecy
import NamedSql.Proofs.Served
import NamedSql.Proofs.Silence
import NamedSql.Proofs.Slate
import NamedSql.Proofs.Squeezing
import NamedSql.Proofs.Steady
import NamedSql.Proofs.Storage
import NamedSql.Proofs.Termination
import NamedSql.Proofs.Tightening
import NamedSql.Proofs.Timeouts
import NamedSql.Proofs.Trailing
import NamedSql.Proofs.Transactions
import NamedSql.Proofs.Turns
import NamedSql.Proofs.Variation
import NamedSql.Proofs.Variation.Run
import NamedSql.Proofs.Variation.Statement
import NamedSql.Proofs.Variation.Workbench
import NamedSql.Proofs.Waiting
import NamedSql.Proofs.Walking
import NamedSql.Proofs.Watching
import NamedSql.Proofs.Widening
import NamedSql.Proofs.Wildcards
import NamedSql.Proofs.Windows
import NamedSql.Proofs.Wording
import NamedSql.Proofs.Written
import NamedSql.Proofs.Yielding
import NamedSql.Roster
import NamedSql.Session
import NamedSql.Session.Hidden
import NamedSql.SessionGroup
import NamedSql.Settings
import NamedSql.Shown
import NamedSql.Statement
import NamedSql.Statement.Action
import NamedSql.Statement.Execution
import NamedSql.Statement.Operations
import NamedSql.Table
import NamedSql.Template
import NamedSql.Template.Filling
import NamedSql.Template.Layout
import NamedSql.Text.Blank
import NamedSql.Text.Lower
import NamedSql.Text.Quoted
import NamedSql.Text.Utf8
import NamedSql.Text.Visible
import NamedSql.TimeLimit
import NamedSql.Value
import NamedSql.Value.Conversion
import NamedSql.Value.Plain
import NamedSql.Vendor
import NamedSql.Vendor.OrderBy
import NamedSql.Vendor.Paging
import NamedSql.Workbench
import NamedSql.Workbench.Step
