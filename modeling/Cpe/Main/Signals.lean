import Cpe.Main.LoadConfig
import Cpe.Main.Server
import Cpe.Main.TapSetup

/-! # Signals

`on_signal`, with the file that it writes of the node table. -/
namespace Cpe.Main
open Cpe.Lib.ByteOrder Cpe.Lib.CString Cpe.Lib.Number

/-- The line of a node, without its end. -/
def CpeNode.meshLine (node : CpeNode) : Bytes :=
  str "[cpes-mesh-info] id:" ++ decimal node.nodeID.toNat ++ str " ip:" ++
    valueToIP node.nodeVirtualIP ++ str " mac-addr:" ++ hexMacAddr node.nodeMacAddr

/-- The text of the table at a time, and the two empty lines behind it. -/
def Server.meshInfo (s : Server) (currentTime : Bytes) : Bytes :=
  currentTime ++ str "print cpe node mesh info, mesh node num:" ++ decimal s.cpes.length ++
    str "\n" ++ (s.cpes.flatMap fun node => node.meshLine ++ str "\n") ++ str "\n" ++ str "\n"

/-- The signals of Linux. -/
@[match_pattern] def SIGUSR1 : Nat := 10
@[match_pattern] def SIGUSR2 : Nat := 12

/-- The server behind a signal, and the path and the text that are written;
`none` is the end of the program. -/
def Server.onSignal {S : Type} [LibConfig S] (s : Server) (files : Files S) (currentTime : Bytes)
    (signum : Nat) : Option (Server × Option (Bytes × Bytes)) :=
  match signum with
  -- SIGINT, SIGQUIT, SIGILL, SIGTRAP, SIGBUS, SIGFPE, SIGSEGV, SIGTERM, SIGTSTP,
  -- SIGALRM, SIGPIPE, SIGXFSZ, SIGXCPU, SIGSYS
  | 2 | 3 | 4 | 5 | 7 | 8 | 11 | 15 | 20 | 14 | 13 | 25 | 24 | 31 => none
  -- an exception of `loadConfig` is not caught
  | SIGUSR1 =>
    match s.config.reload files with
    | .error _ => none
    | .ok config => some ({ s with config := config }.delRouteForNodes, none)
  | SIGUSR2 => some (s, some (cstr s.config.meshFile, s.meshInfo currentTime))
  | _ => some (s, none)

end Cpe.Main
