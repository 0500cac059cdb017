import RyzenAdj.Smu.Service
import RyzenAdj.Linux.Dispatch
import RyzenAdj.Api.Table
import RyzenAdj.Api.Getters
import RyzenAdj.Api.TableRun
import RyzenAdj.Api.TableCalls
import RyzenAdj.Api.Provenance
import RyzenAdj.Api.Setters
import RyzenAdj.Api.Session
import RyzenAdj.Api.BackendFlag
import RyzenAdj.Api.Isolation
import RyzenAdj.Interaction.Progress
import RyzenAdj.Linux.SmnPort
import RyzenAdj.Linux.Doorbell
import RyzenAdj.Smu.RegisterPath
import RyzenAdj.Linux.RawCommand
import RyzenAdj.Api.PathAgreement
import RyzenAdj.Smu.Attribution
import RyzenAdj.Interaction.Concurrent
import RyzenAdj.Smu.Exclusion
import RyzenAdj.Cli.Argparse
import RyzenAdj.Cli.Reading
import RyzenAdj.Cli.Main
import RyzenAdj.Cli.Contract
import RyzenAdj.Cli.Accepted
import RyzenAdj.Cli.Values
import RyzenAdj.Api.SetterLaw
import RyzenAdj.Cli.Ownership
import RyzenAdj.Smu.Timeout
import RyzenAdj.Api.Atomicity
import RyzenAdj.Linux.AtMostOnce
import RyzenAdj.Linux.Dialogue
import RyzenAdj.Linux.OkExact
import RyzenAdj.Linux.Probe
import RyzenAdj.Linux.FullTransfer
import RyzenAdj.Linux.MappedWindow
import RyzenAdj.Api.Telemetry
import RyzenAdj.Api.TableBound
import RyzenAdj.Api.Freshness
import RyzenAdj.Interaction.Finite
import RyzenAdj.Interaction.Link
import RyzenAdj.Interaction.Trace
import RyzenAdj.Api.Messages
import RyzenAdj.Cli.Monitoring
import RyzenAdj.Cli.Protocol
import RyzenAdj.Api.Lifetime
import RyzenAdj.Cli.Tool
import RyzenAdj.Cli.ToolRun
import RyzenAdj.Libc.Scanf
import RyzenAdj.Linux.Detection
import RyzenAdj.Api.Cpuid
import RyzenAdj.Linux.Host
import RyzenAdj.Smu.Bracket
import RyzenAdj.Linux.Kernel
import RyzenAdj.Linux.Resources
import RyzenAdj.Linux.Turn
import RyzenAdj.Linux.Carried
import RyzenAdj.Cli.OnLinux
import RyzenAdj.Interaction.Total
import RyzenAdj.Linux.Pace
import RyzenAdj.Api.Copies
import RyzenAdj.Cli.Report
import RyzenAdj.Linux.Aim
import RyzenAdj.Cli.Processes
import RyzenAdj.Windows.Backend
import RyzenAdj.Windows.Process
import RyzenAdj.Windows.Carried
import RyzenAdj.Cli.OnWindows
import RyzenAdj.Api.Room
import RyzenAdj.Cli.Usage
import RyzenAdj.Client.Library
import RyzenAdj.Client.OnLinux
