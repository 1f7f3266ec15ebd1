import NcnnUpscaler.Protocol.Rejection
import NcnnUpscaler.KeepAlive.Accounting
import NcnnUpscaler.KeepAlive.Clearing
import NcnnUpscaler.KeepAlive.Lengths
import NcnnUpscaler.KeepAlive.Client
import NcnnUpscaler.Tiling.Holes
import NcnnUpscaler.Tiling.Allocation
import NcnnUpscaler.Tiling.Counts
import NcnnUpscaler.Engine.Life
import NcnnUpscaler.Queue.Fifo
import NcnnUpscaler.Queue.Wakeups
import NcnnUpscaler.Image.Locality
import NcnnUpscaler.KeepAlive.Simulation
import NcnnUpscaler.Image.Codec
import NcnnUpscaler.Tiling.Calls
import NcnnUpscaler.Service.Inference
import NcnnUpscaler.Service.Session
import NcnnUpscaler.Service.Configuration
import NcnnUpscaler.Program.Modes
import NcnnUpscaler.Service.Safety
import NcnnUpscaler.Program.Main
import NcnnUpscaler.Service.Refinement
import NcnnUpscaler.Program.Outputs
import NcnnUpscaler.Queue.Shutdown
import NcnnUpscaler.Program.Benchmark
import NcnnUpscaler.Program.Sessions
import NcnnUpscaler.Tiling.Wrapping
import NcnnUpscaler.Image.Wrapping
