import InvertedIndex.Session
import InvertedIndex.Contents.Basic
import InvertedIndex.Contents.Image
import InvertedIndex.Json.Codec
import InvertedIndex.Proofs.Query
import InvertedIndex.Proofs.Access
import InvertedIndex.Proofs.OpenHandles
import InvertedIndex.Proofs.SessionAccess
import InvertedIndex.Proofs.Truncation
import InvertedIndex.Proofs.Placement
import InvertedIndex.Proofs.TableLayout
import InvertedIndex.Proofs.ElementLayout
import InvertedIndex.Proofs.FileLayout
import InvertedIndex.Proofs.ContentsAnswer
import InvertedIndex.Proofs.Tolerance
import InvertedIndex.Proofs.MachineWords
import InvertedIndex.Proofs.DiskChanges
import InvertedIndex.Proofs.SameReads
import InvertedIndex.Proofs.BoundHandles
import InvertedIndex.Proofs.CheckedFiles
import InvertedIndex.Proofs.ChunkedChecksum
import InvertedIndex.Proofs.RowOrder
import InvertedIndex.Proofs.Admission
import InvertedIndex.Proofs.FaultKinds
import InvertedIndex.Proofs.IndependentFiles
import InvertedIndex.Proofs.WordOrder
import InvertedIndex.Proofs.StoredRecords
import InvertedIndex.Proofs.ChainLookup
import InvertedIndex.Proofs.WellFormedText
import InvertedIndex.Proofs.DocumentLookup
import InvertedIndex.Proofs.WordLookup
import InvertedIndex.Proofs.BurstErrors
import InvertedIndex.Proofs.DamagedFiles
import InvertedIndex.Proofs.NameOrder
import InvertedIndex.Proofs.RecordsInPlace
import InvertedIndex.Proofs.QueryLog
import InvertedIndex.Proofs.WordDigests
import InvertedIndex.Proofs.Extents
import InvertedIndex.Proofs.RankTotals
import InvertedIndex.Proofs.WrittenJson
import InvertedIndex.Proofs.JsonForms
