import OranSlice.Fapi.ConfigSafety
import OranSlice.Fapi.DciPayload
import OranSlice.Gtpu.Exactness
import OranSlice.Gtpu.GpduRoundTrip
import OranSlice.Gtpu.Locking
import OranSlice.Mac.CsiPucch
import OranSlice.Mac.DftSizes
import OranSlice.Mac.DlDecodable
import OranSlice.Mac.DlExclusive
import OranSlice.Mac.DlIsolation
import OranSlice.Mac.DlRoundTrip
import OranSlice.Mac.HarqFeedbackRuns
import OranSlice.Mac.NrListRuns
import OranSlice.Mac.Pdcch
import OranSlice.Mac.Riv
import OranSlice.Mac.SliceBytes
import OranSlice.Mac.SlicePolicyFile
import OranSlice.Mac.UeBsr
import OranSlice.Mac.UlExclusive
import OranSlice.Mac.UlHarq
import OranSlice.Pdcp.Keystream
import OranSlice.Pdcp.Resets
import OranSlice.Pdcp.RoundTrip
import OranSlice.Phy.DlschJobs
import OranSlice.Phy.PolarInterleaver
import OranSlice.Rlc.PollExpiry
import OranSlice.Rlc.RxAccounts
import OranSlice.Rlc.SduReassembly
import OranSlice.Rlc.StatusRoundTrip
import OranSlice.Rlc.StatusSize
import OranSlice.Rlc.TxAccounts
import OranSlice.Rlc.UmAccounts
import OranSlice.Rrc.DuRegistry
import OranSlice.Rrc.PduSessionRuns
import OranSlice.Rrc.UeIds
import OranSlice.Sdap.EndMarkers
import OranSlice.Sdap.EntityList
