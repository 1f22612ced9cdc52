import ShellHistory.Bridge

/-! The bridge as a command. It takes the environment of the process and the file of the
configuration as they are, and writes that file back if it has changed. It starts nothing: the
history program and the selector count as programs that cannot be launched. -/

namespace ShellHistory.Main

def names : List String :=
  ["HOME", "PATH", "EDITOR", "XDG_CONFIG_HOME", Session.tokenName, Session.startName,
   Setup.keyName, "VELLUM_BIN", "VELLUM_SELECTOR", "VELLUM_HISTORY_ARGS", "VELLUM_MOVE_ARGS",
   "VELLUM_EDITOR", "VELLUM_SHELL_CONFIG", "VELLUM_SHELL_LOG", "VELLUM_SHELL_LOG_LEVEL",
   "FZF_CTRL_R_OPTS", "FZF_TMUX_HEIGHT", "FZF_DEFAULT_OPTS", "FZF_DEFAULT_OPTS_FILE"]

def environment : IO Environment := do
  let vars ← names.filterMapM fun name => do return (← IO.getEnv name).map (name, ·)
  return ⟨vars⟩

def scripts : List (Role × List Outcome) :=
  [.backend "init", .backend "store", .backend "move", .backend "history", .selector].map
    fun role => (role, List.replicate 2 (.refused .notFound))

def hostOf (e : Environment) (cwd : Place) : Host where
  files := FileTree.empty.plant cwd .directory
  cwd := cwd
  accounts := ⟨"/", []⟩
  login := e
  environ := e
  terminal := false
  scripts := scripts
  calls := []
  records := []
  threshold := Level.warning.number
  logFiles := []
  out := ""
  err := ""
  processes := .system

/-- The file of the configuration, as the command line and the environment name it. -/
def configPath (argv : List String) (h : Host) : Option Path :=
  match Bridge.Invocation.read argv with
  | .ok ⟨some path, _⟩ => if path = "" then none else some (Path.ofString path)
  | _ => (Config.defaultPath h.login h.accounts h.login).toOption

def content? (path : String) : IO (Option ByteArray) :=
  try return some (← IO.FS.readBinFile path) catch _ => return none

def run (argv : List String) : IO Int := do
  let cwd := (Path.ofString (← IO.currentDir).toString).names
  let h := hostOf (← environment) cwd
  let place? := (configPath argv h).map fun path => (Path.lexical (Path.ofPlace cwd) path).names
  let path := ((place?.map Path.ofPlace).map Path.toText).getD ""
  let before ← content? path
  let h := match place?, before with
    | some place, some bytes => { h with files := h.files.plant place (.file bytes false) }
    | _, _ => h
  let (status, h) ← match Bridge.run argv h with
    | .ok status h => pure (status, h)
    | .error f h => do
      IO.eprintln f.message
      pure ((1 : Int), h)
  match place?.bind h.files.node? with
  | some (.file bytes _) =>
    if before != some bytes then
      IO.FS.createDirAll (Path.ofString path).parent.toText
      IO.FS.writeBinFile path bytes
  | _ => pure ()
  IO.print h.out
  IO.eprint h.err
  return status

end ShellHistory.Main

def main (argv : List String) : IO UInt32 := do
  return ((← ShellHistory.Main.run argv).emod 256).toNat.toUInt32
