import SmtCacheBenchmarks.Library.Loop
import SmtCacheBenchmarks.Library.Occurrence
import SmtCacheBenchmarks.Library.FirstHit
import SmtCacheBenchmarks.Library.Lines
import SmtCacheBenchmarks.Library.Lexer
import SmtCacheBenchmarks.Library.Batch
import SmtCacheBenchmarks.Text
import SmtCacheBenchmarks.Coreutils.Shell
import SmtCacheBenchmarks.Coreutils.RunScript
import SmtCacheBenchmarks.Coreutils.InstFile
import SmtCacheBenchmarks.Coreutils.NoLoss
import SmtCacheBenchmarks.Coreutils.Isolation
import SmtCacheBenchmarks.Coreutils.ForLoops
import SmtCacheBenchmarks.KleeOut.Parser
import SmtCacheBenchmarks.KleeOut.Statistics
import SmtCacheBenchmarks.KleeOut.Tables
import SmtCacheBenchmarks.KleeOut.CacheSize
import SmtCacheBenchmarks.KleeOut.Overhead
import SmtCacheBenchmarks.Sqlite.SymbolicTrigger
import SmtCacheBenchmarks.Sqlite.Create
import SmtCacheBenchmarks.Sqlite.PopulateDb
import SmtCacheBenchmarks.Make.Xcalloc
import SmtCacheBenchmarks.Library.Simulation
import SmtCacheBenchmarks.Library.Grouped
import SmtCacheBenchmarks.Library.DoublyLinked
import SmtCacheBenchmarks.Library.SinglyLinked
import SmtCacheBenchmarks.Library.Ownership
import SmtCacheBenchmarks.Sqlite.Hash
import SmtCacheBenchmarks.Sqlite.HashInvariant
import SmtCacheBenchmarks.Sqlite.HashOperations
import SmtCacheBenchmarks.Sqlite.HashRefinement
import SmtCacheBenchmarks.Sqlite.Trigger
import SmtCacheBenchmarks.Sqlite.Catalog
import SmtCacheBenchmarks.Sqlite.TriggerInvariant
import SmtCacheBenchmarks.Sqlite.TriggerOperations
import SmtCacheBenchmarks.Sqlite.TriggerLists
import SmtCacheBenchmarks.Sqlite.SchemaReset
import SmtCacheBenchmarks.Sqlite.SchemaRefinement
import SmtCacheBenchmarks.Sqlite.TriggerHistory
import SmtCacheBenchmarks.Sqlite.PopulateSchema
import SmtCacheBenchmarks.Sqlite.Keyword
import SmtCacheBenchmarks.Sqlite.Tokenizer
import SmtCacheBenchmarks.Sqlite.RunParser
import SmtCacheBenchmarks.Sqlite.CreateTokens
import SmtCacheBenchmarks.Library.ShellScript
import SmtCacheBenchmarks.Library.Outputs
import SmtCacheBenchmarks.Experiments.Scripts
import SmtCacheBenchmarks.Experiments.Runs
import SmtCacheBenchmarks.Experiments.Tables
