import LibMango.Host.Signal
import LibMango.Host.Handshake
import LibMango.Host.Launch
import LibMango.Host.Scalars
import LibMango.Host.Write
import LibMango.Host.Loading
import LibMango.Host.TaskGraph
import LibMango.Host.BurstThreads
import LibMango.Host.Coverage
import LibMango.Host.Removal
import LibMango.Host.Starts
import LibMango.Host.Mappings
import LibMango.Host.Import
import LibMango.Host.KernelOrder
import LibMango.Host.Notifications
import LibMango.Group.Transfer
import LibMango.Device.Nuplus
import LibMango.OpenCL.Devices
import LibMango.OpenCL.Finish
import LibMango.OpenCL.KernelArgs
import LibMango.OpenCL.Resolution
import LibMango.OpenCL.Process
import LibMango.OpenCL.Contexts
import LibMango.OpenCL.Lifetimes
import LibMango.OpenCL.Enqueue
import LibMango.OpenCL.Creation
import LibMango.Group.Forking
import LibMango.Group.Serialized
import LibMango.System.Isolation
import LibMango.System.Monitored
import LibMango.System.Emulation
import LibMango.System.Tasks
