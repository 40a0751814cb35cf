import WfbRs.Lib.Rust
import WfbRs.Lib.Words
import WfbRs.Lib.RingBuffer
import WfbRs.Lib.Descriptor
import WfbRs.Lib.PcapFilter
import WfbRs.Lib.Machine
import WfbRs.Proto
import WfbRs.Radiotap.Parse
import WfbRs.Radiotap.Decode
import WfbRs.Radiotap.Encoding
import WfbRs.Radiotap.RoundTrip
import WfbRs.Radiotap.Antennas
import WfbRs.Radiotap.Confinement
import WfbRs.Rx.Ring
import WfbRs.Rx.Packet
import WfbRs.Rx.Recv
import WfbRs.Rx.Runs
import WfbRs.Rx.Fifo
import WfbRs.Tx
import WfbRs.TxRuns
import WfbRs.Ffi
import WfbRs.Rx.Waiting
import WfbRs.Rx.Deadline
import WfbRs.Rx.Attended
import WfbRs.EndToEnd
import WfbRs.Loopback
import WfbRs.Handles
import WfbRs.Python.Handle
import WfbRs.Python.Api
import WfbRs.Python.Boundary
import WfbRs.Delivery
import WfbRs.Rx.Metadata
import WfbRs.Rx.Promptness
import WfbRs.Lib.CLayout
import WfbRs.Abi
import WfbRs.CApi.Process
import WfbRs.CApi.Streams
import WfbRs.CApi.Independence
import WfbRs.Python.Session
import WfbRs.Python.Lifetime
import WfbRs.Lib.IntParse
import WfbRs.Examples.StreamId
import WfbRs.Examples.SimpleTxrx
import WfbRs.Examples.Bandwidth
import WfbRs.Examples.PythonTxrx
import WfbRs.Python.Loader
import WfbRs.Examples.Shutdown
