import Hdfmonkey.ImageFile
import Hdfmonkey.Addressable
import Hdfmonkey.HdfRoundTrip
import Hdfmonkey.Clone
import Hdfmonkey.CloneDisk
import Hdfmonkey.DiskIo
import Hdfmonkey.MkfsLayout
import Hdfmonkey.FormatSound
import Hdfmonkey.PutFile
import Hdfmonkey.RebuildStatus
import Hdfmonkey.NoOverwrite
import Hdfmonkey.Geometry
import Hdfmonkey.OpenedSize
import Hdfmonkey.Widths
import Hdfmonkey.SectorLaw
import Hdfmonkey.WritesInside
import Hdfmonkey.PutStatus
import Hdfmonkey.Overlay
import Hdfmonkey.ReadOnly
import Hdfmonkey.SourceKept
import Hdfmonkey.RebuildRoom
import Hdfmonkey.PartialTransfers
import Hdfmonkey.Partition
import Hdfmonkey.SubVolume
import Hdfmonkey.PutCloses
import Hdfmonkey.GetFile
import Hdfmonkey.GetDestination
import Hdfmonkey.DirTable
import Hdfmonkey.DirWalks
import Hdfmonkey.LongCopies
import Hdfmonkey.WriteBack
import Hdfmonkey.SectorWindow
import Hdfmonkey.FatTable
import Hdfmonkey.LinkTable
import Hdfmonkey.FatChains
import Hdfmonkey.Remount
import Hdfmonkey.VolumeRuns
import Hdfmonkey.Striped
import Hdfmonkey.FileSectors
import Hdfmonkey.FileReads
import Hdfmonkey.FileWrites
import Hdfmonkey.FileClose
import Hdfmonkey.FileTransfers
import Hdfmonkey.TableSectors
import Hdfmonkey.TableWalks
import Hdfmonkey.Listings
import Hdfmonkey.RootTable
import Hdfmonkey.SlotVolume
import Hdfmonkey.SlotCalls
import Hdfmonkey.DirSearch
import Hdfmonkey.TableGrowth
import Hdfmonkey.DirRegister
import Hdfmonkey.Catalogue
import Hdfmonkey.FileCreation
