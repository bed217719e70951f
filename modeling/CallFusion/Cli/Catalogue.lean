import CallFusion.Cli.Command
import CallFusion.Merge.Mode

/-! The program's commands and what they say about themselves. -/
namespace CallFusion.Cli

def linesOf (ls : List String) : String := "\n".intercalate ls

def textFlag (name usage : String) : Flag := { name := name, kind := .text, usage := usage }

def switchFlag (name usage : String) : Flag := { name := name, kind := .switch, default := "false", usage := usage }

def profileFlag : Flag :=
  { textFlag "profile" "Toolchain profile (go, rust); defaults to the configuration" with offers := some .profiles }

def runCommand : Command where
  name := "run"
  form := "run [flags] <input.ll>"
  short := "Apply one split or merge transformation to an IR module"
  long := linesOf [
    "Read an LLVM IR module, apply exactly one transformation and write the result.",
    "",
    "Modes:",
    "  --rename-caller     suffix every function with _<caller>",
    "  --rename-callee     give the callee half's entry chain profile names, suffix the rest with _<callee>",
    "  --merge-callee      clone the callee locally and call it instead of the RPC stub",
    "  --merge-existing    call a callee merged earlier instead of the RPC stub",
    "  --replace-make-rpc  --merge-existing with the Go profile",
    "",
    "Diagnostics go to stderr. A transformation whose preconditions fail leaves",
    "the module unchanged; use --strict to turn that into a non-zero exit.",
    "",
    "Examples:",
    "  rpcmerge run --rename-caller --caller frontend caller.ll -o caller.split.ll",
    "  rpcmerge run --merge-callee --caller frontend --callee backend --profile rust linked.ll",
    "  cat main.ll | rpcmerge run --replace-make-rpc -"]
  flags := Mode.all.map (fun m => switchFlag m.text ("Run the " ++ m.text ++ " transformation")) ++ [
    { textFlag "caller" "Caller partition name" with offers := some .nothing },
    { textFlag "callee" "Callee partition name" with offers := some .nothing },
    profileFlag,
    { name := "output", short := some 'o', kind := .text, default := "-", usage := "Output file path (- for stdout)" },
    switchFlag "strict" "Exit non-zero when the transformation reports blocking diagnostics"]
  rule := .exactly 1
  exclusive := Mode.all.map Mode.text
  offers := some .moduleFiles

def inspectCommand : Command where
  name := "inspect"
  form := "inspect <input.ll>"
  short := "List functions and call sites with their logical names"
  long := linesOf [
    "Print every function with its kind and logical (demangled) name, then every",
    "call site with its target. Call sites that match the profile's RPC stub are",
    "marked, together with the callee name they carry when the profile has one.",
    "",
    "Pass the partition names used by earlier rename runs with --suffix so they",
    "are stripped before demangling.",
    "",
    "Examples:",
    "  rpcmerge inspect linked.ll",
    "  rpcmerge inspect --profile rust --suffix frontend --suffix backend linked.ll"]
  flags := [profileFlag,
    { name := "suffix", kind := .texts, usage := "Partition suffix to strip before demangling (repeatable)" }]
  rule := .exactly 1
  offers := some .moduleFiles

def historyCommand : Command where
  name := "history"
  form := "history"
  short := "List recent transformation runs"
  long := linesOf [
    "Show the runs recorded in the local store, newest first.",
    "",
    "Example:",
    "  rpcmerge history --limit 5"]
  flags := [{ name := "limit", kind := .integer, default := "20", usage := "Maximum number of runs to show" }]
  rule := .none

def doctorCommand : Command where
  name := "doctor"
  form := "doctor"
  short := "Diagnose the rpcmerge environment"
  long := linesOf [
    "Check the configuration and the external tools rpcmerge relies on.",
    "",
    "This command verifies:",
    "  - the configuration file and environment overrides",
    "  - the configured demangler backend",
    "  - the history and demangling cache",
    "  - LLVM tools used to produce and consume textual IR"]
  samples := linesOf [
    "  # Check environment status",
    "  rpcmerge doctor",
    "",
    "  # Show tool paths",
    "  rpcmerge doctor --verbose"]
  flags := [{ switchFlag "verbose" "Show detailed tool paths" with short := some 'v' }]
  rule := .none

def initCommand : Command where
  name := "init"
  form := "init [directory]"
  short := "Write a project-local rpcmerge configuration"
  long := linesOf [
    "Create a .rpcmerge.toml for a partitioned application.",
    "",
    "The generated file selects the toolchain profile and demangler backend and",
    "keeps the run history next to the project. A .gitignore entry for the",
    "local cache is added as well.",
    "",
    "When run in an interactive terminal, it prompts for the profile and the",
    "demangler backend."]
  flags := [switchFlag "force" "Overwrite the configuration when it already exists",
    { switchFlag "interactive" "Prompt for the profile and demangler" with default := "true" },
    { textFlag "profile" "Toolchain profile to write (go, rust)" with offers := some .profiles },
    textFlag "demangler" "Demangler backend to write (local, command, remote)"]
  rule := .atMost 1

def versionCommand : Command where
  name := "version"
  form := "version"
  short := "Print the version number of rpcmerge"
  long := "Display the current version of the rpcmerge CLI tool."

def demangleCommand : Command where
  name := "demangle"
  form := "demangle <symbol>..."
  short := "Resolve symbols to logical names through the configured bridge"
  long := linesOf [
    "Print the logical name of each symbol, one per line, using the demangler",
    "selected in the configuration (local, command or remote). Symbols the bridge",
    "cannot resolve are printed unchanged.",
    "",
    "Examples:",
    "  rpcmerge demangle _ZN11OpenFaaSRPC8make_rpc17h0123456789abcdefE",
    "  RPCMERGE_DEMANGLER=remote rpcmerge demangle _ZN3foo3barE"]
  flags := [switchFlag "keep-hash" "Keep the trailing Rust hash segment"]
  rule := .atLeast 1

def serveCommand : Command where
  name := "serve-demangler"
  form := "serve-demangler"
  short := "Start the JSON-RPC demangling bridge"
  long := linesOf [
    "Start a JSON-RPC 2.0 server that resolves symbols for remote rpcmerge runs.",
    "",
    "Endpoints:",
    "  - /rpc     Demangler.Demangle \x7b\"symbol\": \"...\"\x7d -> \x7b\"name\": \"...\"\x7d",
    "  - /health  liveness check",
    "",
    "The bridge answers with the local demangler, or with the configured external",
    "command when demangler = command.",
    "",
    "Example:",
    "  rpcmerge serve-demangler --addr :8090",
    "  rpcmerge serve-demangler --addr :8090 --auth-token secret123"]
  flags := [{ textFlag "addr" "Address to listen on" with default := ":8090" },
    textFlag "auth-token" "Bearer token required from clients"]

def completionCommand : Command where
  name := "completion"
  form := "completion [bash|zsh|fish|powershell]"
  short := "Generate completion script for your shell"
  long := linesOf [
    "To load completions:",
    "",
    "Bash:",
    "",
    "  $ source <(rpcmerge completion bash)",
    "",
    "  # To load completions for each session, add to your .bashrc:",
    "  $ rpcmerge completion bash > /usr/local/etc/bash_completion.d/rpcmerge",
    "",
    "Zsh:",
    "",
    "  # To load completions for each session, add to your .zshrc:",
    "  $ source <(rpcmerge completion zsh)",
    "",
    "Fish:",
    "",
    "  $ rpcmerge completion fish > ~/.config/fish/completions/rpcmerge.fish",
    "",
    "PowerShell:",
    "",
    "  PS> rpcmerge completion powershell | Out-String | Invoke-Expression"]
  rule := .oneOf ["bash", "zsh", "fish", "powershell"]
  mentionsFlags := false

def helpCommand : Command where
  name := "help"
  form := "help [command]"
  short := "Help about any command"
  long := linesOf [
    "Help provides help for any command in the application.",
    "Simply type rpcmerge help [path to command] for full details."]

inductive Verb where
  | completion
  | demangle
  | doctor
  | history
  | init
  | inspect
  | run
  | serve
  | version
  | help
  deriving DecidableEq, Repr, Inhabited

def Verb.all : List Verb := [completion, demangle, doctor, history, init, inspect, run, serve, version, help]

def Verb.command : Verb → Command
  | completion => completionCommand
  | demangle => demangleCommand
  | doctor => doctorCommand
  | history => historyCommand
  | init => initCommand
  | inspect => inspectCommand
  | run => runCommand
  | serve => serveCommand
  | version => versionCommand
  | help => helpCommand

def program : Program where
  name := "rpcmerge"
  long := linesOf [
    "rpcmerge rewrites compiled LLVM IR to move a function-call boundary across a",
    "process edge. It can split a program into separately deployable caller and",
    "callee halves, or merge the halves back by turning the RPC stub call into a",
    "direct call to a local copy of the callee.",
    "",
    "Examples:",
    "  rpcmerge run --rename-caller --caller frontend caller.ll -o caller.split.ll",
    "  rpcmerge run --rename-callee --callee backend --profile rust callee.ll",
    "  rpcmerge run --merge-callee --caller frontend --callee backend linked.ll",
    "  rpcmerge run --replace-make-rpc main.ll",
    "  rpcmerge inspect linked.ll",
    "  rpcmerge serve-demangler --addr :8090",
    "",
    "Configuration is read from .rpcmerge.toml and RPCMERGE_* environment variables."]
  flags := [
    { textFlag "log-level" "Log level (debug, info, warn, error); overrides the configuration" with offers := some .logLevels },
    switchFlag "log-json" "Write logs as JSON",
    switchFlag "no-color" "Disable coloured diagnostics"]
  commands := Verb.all.map Verb.command

end CallFusion.Cli
