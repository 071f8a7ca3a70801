import H2pp.Hpack.DecoderSafety
import H2pp.Hpack.Eviction
import H2pp.Hpack.HuffmanStrings
import H2pp.Hpack.IntegerFormat
import H2pp.Hpack.Lookup
import H2pp.Hpack.OrderedIndex
import H2pp.Hpack.Origins
import H2pp.Hpack.Pieces
import H2pp.Hpack.Session
import H2pp.Hpack.TableBound
import H2pp.Hpack.TableMemory
import H2pp.Http2.Budget
import H2pp.Http2.Delivery
import H2pp.Http2.FlowControl
import H2pp.Http2.Fragmentation
import H2pp.Http2.FrameRoundTrip
import H2pp.Http2.Handlers
import H2pp.Http2.HeaderBlocks
import H2pp.Http2.Queue
import H2pp.Http2.Quiescence
import H2pp.Http2.ReceiveWindows
import H2pp.Http2.RemoteSettings
import H2pp.Http2.Replies
import H2pp.Http2.RequestFrames
import H2pp.Http2.SessionRefinement
import H2pp.Http2.Shutdown
import H2pp.Http2.StreamLife
import H2pp.Http2.Transport
import H2pp.Http2.WireOutput
import H2pp.Http2.WriteLoop
import H2pp.Utils.StreambufMemory
