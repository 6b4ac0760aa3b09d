import HeaderMeta.Main
import HeaderMeta.Manifest.Parser
import HeaderMeta.Text.Place
import HeaderMeta.Proofs.Append
import HeaderMeta.Proofs.PatternScan
import HeaderMeta.Proofs.Printed
import HeaderMeta.Proofs.Rescan
import HeaderMeta.Proofs.Squash
import HeaderMeta.Proofs.Reparse
import HeaderMeta.Proofs.Readback
import HeaderMeta.Proofs.Comments
import HeaderMeta.Proofs.ByteOrder
import HeaderMeta.Proofs.Collected
import HeaderMeta.Proofs.Decoding
import HeaderMeta.Proofs.Gathered
import HeaderMeta.Proofs.Rerun
import HeaderMeta.Proofs.Agreement
import HeaderMeta.Proofs.Markers
import HeaderMeta.Proofs.Counts
import HeaderMeta.Proofs.Environment
import HeaderMeta.Proofs.Truncated
import HeaderMeta.Proofs.Layouts
import HeaderMeta.Proofs.OffsetScans
import HeaderMeta.Proofs.Unambiguous
import HeaderMeta.Proofs.Moves
