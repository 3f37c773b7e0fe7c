import Restock.CountryRuns
import Restock.OrderTimes
import Restock.OrderMatch
import Restock.OrderUpsert
import Restock.PackageTimes
import Restock.Recalculate
import Restock.DraftExport
import Restock.ExportPointers
import Restock.SyncLocks
import Restock.TokenRefresh
import Restock.LoginCounts
import Restock.PermissionCache
import Restock.Dashboard
import Restock.DashboardRefresh
import Restock.OutRecords
import Restock.ApiCallRetry
import Restock.ImportConfirm
import Restock.ZipcodeSplit
import Restock.LocalAssembly
import Restock.EngineOutput
import Restock.TransitCountry
import Restock.MappingImport
import Restock.ZipcodeRuleIn
import Restock.Velocity
import Restock.CountryQty
import Restock.InputsSnapshot
import Restock.PatchTwice
import Restock.InventoryImport
import Restock.IntegerShares
import Restock.BetweenSegments
import Restock.RateLimit
import Restock.SaihuClient
import Restock.InventorySync
import Restock.ListingSync
import Restock.Workbooks
import Restock.SnapshotGeneration
import Restock.EngineDemand
import Restock.EngineHorizon
import Restock.SnapshotFiles
import Restock.InventoryHistory
import Restock.OrderList
import Restock.InventoryLists
import Restock.ThirdPartyGroups
import Restock.RolePermissions
import Restock.TaskLeases
import Restock.Scheduler
