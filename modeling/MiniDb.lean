import MiniDb.Lib.BinarySearch
import MiniDb.Lib.LinkedList
import MiniDb.Lib.Simulation
import MiniDb.Lib.Visit
import MiniDb.Storage.PageFormat
import MiniDb.Storage.Pager
import MiniDb.Storage.FreeList
import MiniDb.Storage.Bptree.Basic
import MiniDb.Storage.Bptree.Rows
import MiniDb.Storage.Bptree.Descent
import MiniDb.Storage.Bptree.Update
import MiniDb.Storage.Bptree.PropagateInsert
import MiniDb.Storage.Bptree.Leaves
import MiniDb.Storage.Bptree.Insert
import MiniDb.Storage.Bptree.PropagateDelete
import MiniDb.Storage.Bptree.Delete
import MiniDb.Storage.Bptree.Refinement
import MiniDb.Storage.Bptree.Structure
import MiniDb.Storage.Bptree.RangeScan
import MiniDb.Lib.HashIndex
import MiniDb.Storage.PageCache.Basic
import MiniDb.Storage.PageCache.Transparent
import MiniDb.Lib.LockSet
import MiniDb.Server.LockTable
import MiniDb.Server.LockSafety
import MiniDb.Lib.Bytes
import MiniDb.Storage.Heap.Basic
import MiniDb.Storage.Heap.Layout
import MiniDb.Storage.Heap.Chain
import MiniDb.Storage.Heap.Operations
import MiniDb.Storage.Heap.Refinement
import MiniDb.Lib.Scan
import MiniDb.Lib.Search
import MiniDb.Sql.CText
import MiniDb.Sql.Statement
import MiniDb.Sql.Parser
import MiniDb.Storage.Schema
import MiniDb.Sql.Planner
import MiniDb.Sql.Explain
import MiniDb.Sql.Executor.Order
import MiniDb.Sql.Executor.Basic
import MiniDb.Db.Basic
import MiniDb.Sql.ParserFacts
import MiniDb.Sql.ListBounds
import MiniDb.Storage.RowCodec
import MiniDb.Sql.CreateSchema
import MiniDb.Sql.Clauses
import MiniDb.Sql.Tails
import MiniDb.Sql.ClauseWords
import MiniDb.Sql.SelectText
import MiniDb.Sql.IdCondition
import MiniDb.Db.LockCoverage
import MiniDb.Lib.Runs
import MiniDb.Storage.ReadOnly
import MiniDb.Storage.Heap.Oversize
import MiniDb.Db.Pages
import MiniDb.Sql.Executor.Reads
import MiniDb.Db.Invariant
import MiniDb.Db.Statements
import MiniDb.Db.DropTable
import MiniDb.Db.Reach
import MiniDb.Db.Ownership
import MiniDb.Db.InStep
import MiniDb.Db.InsertReturns
import MiniDb.Db.Matching
import MiniDb.Server.Http
import MiniDb.Server.Truncation
import MiniDb.Server.Framing
import MiniDb.Db.Effects
import MiniDb.Db.PointStatements
import MiniDb.Db.OrderedScan
import MiniDb.Db.RangeAgrees
import MiniDb.Server.WriterCount
import MiniDb.Clients.Basic
import MiniDb.Clients.Deadlock
import MiniDb.Clients.Release
import MiniDb.Clients.TwoPhase
import MiniDb.Db.FreeHint
import MiniDb.Storage.RoundTrip
import MiniDb.Lib.Block
import MiniDb.Sql.Executor.OutBuf
import MiniDb.Sql.Executor.RowCollect
import MiniDb.Server.BodyInfluence
import MiniDb.Server.Response
import MiniDb.Db.HeapScan
import MiniDb.Db.InsertColumns
import MiniDb.Lib.Recorded
import MiniDb.Storage.Bptree.LeafUnderflow
import MiniDb.Storage.Bptree.LatchStack
import MiniDb.Storage.Bptree.LeafMerge
import MiniDb.Storage.Bptree.PinDiscipline
import MiniDb.Storage.Bptree.ForeignWrites
import MiniDb.Storage.Bptree.LatchDiscipline
import MiniDb.Clients.RangePhases
import MiniDb.Clients.Accounts
import MiniDb.Clients.Columns
import MiniDb.Lib.Holding
import MiniDb.Server.Connections
import MiniDb.Server.Shutdown
import MiniDb.Db.MetaCommands
import MiniDb.Db.Pins
import MiniDb.Db.Blind
import MiniDb.Db.Sessions
import MiniDb.Lib.Packed
import MiniDb.Storage.FileFormat
import MiniDb.Storage.PageCache.Reopen
import MiniDb.Db.FileImage
import MiniDb.Db.TextRoundTrip
