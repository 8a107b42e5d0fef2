import CsvQuery.Engine.SettingsText
import CsvQuery.Main
import CsvQuery.Proofs.Engine.Answer
import CsvQuery.Proofs.Query.OpenQuote
import CsvQuery.Proofs.Search.Sorting
import CsvQuery.Proofs.Search.Deadline
import CsvQuery.Proofs.Scheduler.Delivery
import CsvQuery.Proofs.Scheduler.Lifecycle
import CsvQuery.Proofs.Scheduler.Cancellation
import CsvQuery.Proofs.Scheduler.Calls
import CsvQuery.Proofs.Scheduler.Independence
import CsvQuery.Proofs.Engine.History
import CsvQuery.Proofs.Engine.Transparency
import CsvQuery.Proofs.Engine.AnyDeadline
import CsvQuery.Proofs.Engine.Sharing
import CsvQuery.Proofs.Engine.Outcomes
import CsvQuery.Proofs.Engine.Tables
import CsvQuery.Proofs.Query.Writing
import CsvQuery.Proofs.Condition.Literals
import CsvQuery.Proofs.Csv.Reading
import CsvQuery.Proofs.Text.Utf8
import CsvQuery.Proofs.Token.Rejoining
import CsvQuery.Proofs.Csv.Written
import CsvQuery.Proofs.Query.RepeatedColumns
import CsvQuery.Proofs.Engine.Bookkeeping
import CsvQuery.Proofs.Condition.SortOrder
import CsvQuery.Proofs.Condition.Operators
import CsvQuery.Proofs.Condition.Grouping
import CsvQuery.Proofs.Selection.Lookups
import CsvQuery.Proofs.Scheduler.Counts
import CsvQuery.Proofs.Shell.FrontEnds
import CsvQuery.Proofs.Shell.Continuation
import CsvQuery.Proofs.Config.Saving
