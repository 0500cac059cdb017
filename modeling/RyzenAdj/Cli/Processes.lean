import RyzenAdj.Cli.OnLinux
import RyzenAdj.Linux.Workbench

/-!
# Tools side by side

Any number of processes of the tool on one machine, interleaved system call by
system call.
-/

namespace RyzenAdj
open Interaction Libc

end RyzenAdj
