import OpenSan.Caching.Apply
import OpenSan.Common.DeepCopy
import OpenSan.Common.Strip
import OpenSan.Controller.Credentials
import OpenSan.Controller.Effects
import OpenSan.Controller.LunZero
import OpenSan.Controller.PatternUpdates
import OpenSan.Controller.Requests
import OpenSan.Controller.RunningTargets
import OpenSan.Controller.StoreInvariant
import OpenSan.Controller.Writes
import OpenSan.Einarc.AbsentMembers
import OpenSan.Einarc.ArrayStates
import OpenSan.Einarc.Devices
import OpenSan.Einarc.DiskRecords
import OpenSan.Einarc.Flashcache
import OpenSan.Einarc.FlashcacheReboot
import OpenSan.Einarc.Growing
import OpenSan.Einarc.Physicals
import OpenSan.Einarc.SortedDisks
import OpenSan.Einarc.Trailers
import OpenSan.Foundation.Action
import OpenSan.Foundation.Blocks
import OpenSan.Foundation.Columns
import OpenSan.Foundation.Double
import OpenSan.Foundation.Fields
import OpenSan.Foundation.Footprint
import OpenSan.Foundation.Heap
import OpenSan.Foundation.Literals
import OpenSan.Foundation.Lua
import OpenSan.Foundation.Number
import OpenSan.Foundation.NumberText
import OpenSan.Foundation.Numeration
import OpenSan.Foundation.OriginOrder
import OpenSan.Foundation.Outline
import OpenSan.Foundation.Pattern
import OpenSan.Foundation.Rounding
import OpenSan.Foundation.Run
import OpenSan.Foundation.Sort
import OpenSan.Foundation.Stream
import OpenSan.Foundation.Substitution
import OpenSan.Foundation.Unfolding
import OpenSan.Lvm.ListedOnce
import OpenSan.Lvm.Listing
import OpenSan.Lvm.Names
import OpenSan.Lvm.Sizes
import OpenSan.Lvm.Snapshots
import OpenSan.Matrix.BlockBorders
import OpenSan.Matrix.Blocks
import OpenSan.Matrix.Bordered
import OpenSan.Matrix.Borders
import OpenSan.Matrix.CacheRelease
import OpenSan.Matrix.Chain
import OpenSan.Matrix.Complete
import OpenSan.Matrix.Degraded
import OpenSan.Matrix.Divisors
import OpenSan.Matrix.Filters
import OpenSan.Matrix.Hotspares
import OpenSan.Matrix.Inventory
import OpenSan.Matrix.Layout
import OpenSan.Matrix.Marked
import OpenSan.Matrix.Occurrence
import OpenSan.Matrix.Overall
import OpenSan.Matrix.Printed
import OpenSan.Matrix.Reading
import OpenSan.Matrix.Rendered
import OpenSan.Matrix.Scan
import OpenSan.Matrix.Sheet
import OpenSan.Matrix.Shown
import OpenSan.Matrix.Steps
import OpenSan.Matrix.TableBorders
import OpenSan.Matrix.Tiling
import OpenSan.Matrix.VolumeOrder
import OpenSan.Scst.Configuration
import OpenSan.Scst.ExportedText
import OpenSan.Scst.Exports
import OpenSan.Scst.Injection
import OpenSan.Scst.LunZero
import OpenSan.Scst.Reading
import OpenSan.Scst.Records
import OpenSan.Scst.Store
import OpenSan.Scst.TargetName
import OpenSan.Scst.WriteThrough
import OpenSan.Storage.Addition
import OpenSan.Storage.ArrayRequests
import OpenSan.Storage.CachedPaths
import OpenSan.Storage.Commands
import OpenSan.Storage.Deletion
import OpenSan.Storage.DiskNames
import OpenSan.Storage.FreeDisks
import OpenSan.Storage.FreshPage
import OpenSan.Storage.KernelOrder
import OpenSan.Storage.Machine
import OpenSan.Storage.Page
import OpenSan.Storage.Removal
import OpenSan.Storage.Requests
import OpenSan.Storage.SnapshotSizes
import OpenSan.Storage.StalePages
import OpenSan.Storage.System
import OpenSan.Web.Base64
import OpenSan.Web.FormData
import OpenSan.Web.Perform
import OpenSan.Web.Serialization
import OpenSan.Web.SharedTables
import OpenSan.Web.Urlencoding
import OpenSan.Web.VolumeTables
