import Monoimage.Clib.Text
import Monoimage.Clib.Lines
import Monoimage.Clib.Struct
import Monoimage.Clib.Memory
import Monoimage.Clib.Scan
import Monoimage.Clib.Exec
import Monoimage.Clib.Trace
import Monoimage.Clib.Files
import Monoimage.Clib.Hex
import Monoimage.Clib.Getopt
import Monoimage.Libcli.Words
import Monoimage.Libcli.Command
import Monoimage.Image.Header
import Monoimage.Image.Codes
import Monoimage.Device.Uuid
import Monoimage.Device.Walk
import Monoimage.CommandLine.Variable
import Monoimage.CommandLine.Lookup
import Monoimage.CommandLine.Compose
import Monoimage.Linuxrc.Main
import Monoimage.Linuxrc.Stages
import Monoimage.Linuxrc.Success
import Monoimage.Linuxrc.Offset
import Monoimage.Boot.Config
import Monoimage.Boot.Write
import Monoimage.Boot.Start
import Monoimage.Boot.Readme
import Monoimage.Boot.Tags
import Monoimage.Boot.Return
import Monoimage.Boot.Shell
import Monoimage.Boot.Session
import Monoimage.Boot.Modes
import Monoimage.Boot.Console
import Monoimage.Boot.Mounted
import Monoimage.Boot.Tftp
import Monoimage.Boot.Netconf
import Monoimage.Boot.Keypress
import Monoimage.Boot.Monoinit
import Monoimage.Boot.Protocol
import Monoimage.Boot.Acknowledge
import Monoimage.Boot.Handover
import Monoimage.Kexec.Options
import Monoimage.Kexec.Monoimage
import Monoimage.Kexec.Operand
import Monoimage.Kexec.Devices
import Monoimage.Kexec.Mounts
import Monoimage.Kexec.Relative
import Monoimage.Kexec.FileType
import Monoimage.Kexec.Loading
import Monoimage.Kexec.NewKernel
import Monoimage.Boot.Buffers
