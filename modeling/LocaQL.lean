import LocaQL.Engine.Views
import LocaQL.Supervisor
import LocaQL.Catalog.Reconciliation
import LocaQL.Rest.Expiration
import LocaQL.Catalog.CsvDetection
import LocaQL.Storage.Offsets
import LocaQL.Sql.Transactions
import LocaQL.Rest.Uploads
import LocaQL.Sql.Columns
import LocaQL.Sql.Options
import LocaQL.Sql.ScanRanges
import LocaQL.Rest.PartitionColumns
import LocaQL.Jobs.Readable
import LocaQL.Catalog.PartitionIDs
import LocaQL.Jobs.Serialization
import LocaQL.Jobs.Scripts
import LocaQL.Jobs.Extracts
import LocaQL.Workspace.Convergence
import LocaQL.Catalog.Periods
import LocaQL.Rest.Pagination
import LocaQL.Jobs.Slots
