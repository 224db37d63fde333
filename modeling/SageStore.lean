import SageStore.Foundation.Text
import SageStore.Foundation.Cells
import SageStore.Foundation.Numerals
import SageStore.Foundation.DecimalNumber
import SageStore.Foundation.Machine
import SageStore.Foundation.Exchange
import SageStore.Foundation.Table
import SageStore.Foundation.Database
import SageStore.Foundation.Session
import SageStore.Foundation.Lockstep
import SageStore.Foundation.Trace
import SageStore.Foundation.Completion
import SageStore.Foundation.View
import SageStore.Foundation.Buckets
import SageStore.Foundation.Regex
import SageStore.Foundation.Sql
import SageStore.Foundation.Network
import SageStore.Foundation.Replica
import SageStore.Foundation.Undisturbed
import SageStore.Foundation.Refinement
import SageStore.Server.Platform
import SageStore.Server.Schema
import SageStore.Server.Repositories
import SageStore.Server.Queries
import SageStore.Server.ModuleUtils
import SageStore.Server.Effect
import SageStore.Server.Modules.Users
import SageStore.Server.Modules.Management
import SageStore.Server.Modules.Logs
import SageStore.Server.Modules.Inventory
import SageStore.Server.Modules.Orders
import SageStore.Server.Modules.Sales
import SageStore.Server.Modules.Purchase
import SageStore.Server.Modules.Receipts
import SageStore.Server.Modules.PurchaseSpec
import SageStore.Server.Modules.Analytics
import SageStore.Server.BusinessLogic
import SageStore.Server.Footprint
import SageStore.Server.Steps
import SageStore.Server.LineWrites
import SageStore.Server.TextWrites
import SageStore.Server.Http
import SageStore.Server.JsonReader
import SageStore.Client.Qt
import SageStore.Client.Statuses
import SageStore.Client.ApiManager
import SageStore.Client.OrdersModel
import SageStore.Client.SalesView
import SageStore.Client.StocksView
import SageStore.Client.AnalyticsViewModel
import SageStore.Client.AnalyticsView
import SageStore.Client.SupplierCatalogView
import SageStore.Client.LineEditor
import SageStore.Client.NetworkService
import SageStore.Client.Requests
import SageStore.Client.Models
import SageStore.Client.UsersView
import SageStore.Common.EntityGenerator
import SageStore.Properties.PurchaseOrders
import SageStore.Properties.Figures
import SageStore.Properties.Statuses
import SageStore.Properties.StockLedger
import SageStore.Properties.Atomicity
import SageStore.Properties.Answered
import SageStore.Properties.Audit
import SageStore.Properties.Frame
import SageStore.Properties.Deletion
import SageStore.Properties.Phantom
import SageStore.Properties.Uniqueness
import SageStore.Properties.Spellings
import SageStore.Properties.Passwords
import SageStore.Properties.Receivable
import SageStore.Properties.Receiving
import SageStore.Properties.OrderLines
import SageStore.Properties.LineFields
import SageStore.Properties.Codec
import SageStore.Properties.Listings
import SageStore.Properties.Texts
import SageStore.Properties.Alignment
import SageStore.Properties.Selection
import SageStore.Properties.InvoicePreview
import SageStore.Properties.InvoiceAmounts
import SageStore.Properties.StockEdits
import SageStore.Properties.Metrics
import SageStore.Properties.Timeline
import SageStore.Properties.CsvImport
import SageStore.Properties.EntityFields
import SageStore.Properties.TableAgreement
import SageStore.Properties.TypedTables
import SageStore.Properties.LineEdits
import SageStore.Properties.Faults
import SageStore.Properties.Replies
import SageStore.Properties.Replicas
import SageStore.Properties.LogIns
import SageStore.Properties.TaskSystem
import SageStore.Properties.Keys
import SageStore.Properties.Accounts
import SageStore.Properties.Freshness
import SageStore.Properties.Catalogue
import SageStore.Properties.Changes
