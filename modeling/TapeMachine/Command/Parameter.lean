import TapeMachine.Text.Quoted

/-!
# Parameters of the command line

The options with their spellings, and the script as the only positional argument.
-/

namespace TapeMachine

namespace Command

inductive Parameter where
  | script
  | input
  | timeout
  | backend
  | directory
  | compiler
  | memoryLimit
  | emitRust
  | verbose
  | stats
  | plain
  | help
deriving DecidableEq

namespace Parameter

def options : List Parameter := [.input, .timeout, .backend, .directory, .compiler, .memoryLimit,
  .emitRust, .verbose, .stats, .plain, .help]

def spellings : Parameter → List String
  | .script => []
  | .input => ["--input"]
  | .timeout => ["--timeout", "-t"]
  | .backend => ["--backend", "-b"]
  | .directory => ["--tmp-dir"]
  | .compiler => ["--compiler"]
  | .memoryLimit => ["--mem-limit"]
  | .emitRust => ["--emit-rust"]
  | .verbose => ["--verbose", "-v"]
  | .stats => ["--stats"]
  | .plain => ["--plain", "-p"]
  | .help => ["-h", "--help"]

def longOptions : List (String × Parameter) :=
  options.flatMap fun p => (p.spellings.filter (·.startsWith "--")).map fun name => (name, p)

def ofLong? (name : String) : Option Parameter := longOptions.lookup name

def ofShort? (letter : Char) : Option Parameter :=
  options.find? fun p => p.spellings.contains (String.ofList ['-', letter])

def takesValue : Parameter → Bool
  | .input => true
  | .timeout => true
  | .backend => true
  | .directory => true
  | .compiler => true
  | .memoryLimit => true
  | _ => false

def hint : Parameter → String
  | .script => "'[SCRIPT]'"
  | p => String.intercalate " / " (p.spellings.map quoted)

def summary : Parameter → String
  | .script => ""
  | .input => "Input characters for the program; skips the prompt."
  | .timeout => "Abort the program after this many seconds."
  | .backend => "Execution strategy; \x60auto\x60 uses the compiler when found."
  | .directory => "Directory for generated sources and binaries."
  | .compiler => "Compiler binary for the native backend (default: $BFRUN_RUSTC or rustc)."
  | .memoryLimit => "Address-space limit in MB for native binaries (POSIX only)."
  | .emitRust => "Print the generated Rust source instead of running."
  | .verbose => "Show backend decisions, or trace every instruction with -vv."
  | .stats => "Display execution statistics (e.g., number of steps)."
  | .plain => "Strip ANSI color codes and redirect stderr to stdout."
  | .help => "Show this message and exit."

end Parameter

end Command

end TapeMachine
