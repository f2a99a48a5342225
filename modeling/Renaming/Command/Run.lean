import Renaming.Command.Arguments
import Renaming.Files.Rename

/-!
# A run of the command

`execute` loads the mappings and then renames the input file; `run` reads the arguments first, says
what is printed and with which exit code the program ends, and drops the failure. The level of the log
only chooses among the events of a run (`Answer.ofRun`).
-/

namespace Renaming.Command

variable {m : Type → Type} [Monad m] [Disk m]

/-- What is told of the mappings between the stages. -/
def note (options : Options) (dictionary : Dictionary) : List Event :=
  if dictionary.isEmpty then [.nothingMapped options.mappings] else []

/-- Loads the mappings and renames the file that the options name. -/
def execute (options : Options) : m (Traced (Files.FileFailure (Disk.Temporary m)) Unit) := do
  let loaded : Traced Failure (Dictionary × RowTally) ←
    Files.loadFile options.settings options.mappings
  match loaded.result with
  | .error failure => return ⟨loaded.events, .error ⟨failure, none⟩⟩
  | .ok (dictionary, _) =>
    let told := loaded.events ++ note options dictionary
    let renamed ← Files.renameFile options.settings dictionary options.input options.output
    match renamed.result with
    | .error failed => return ⟨told ++ renamed.events, .error failed⟩
    | .ok tally =>
      let written := Event.fileWritten tally.lines options.output
      return ⟨told ++ renamed.events ++ [written], .ok ()⟩

/-- What the program prints, and its exit code. -/
structure Answer where
  exitCode : Nat
  stdout : String
  stderr : String
  deriving DecidableEq, Repr

/-- The causes of a failure, one on a line, numbered if there are several. -/
def causeLines : List String → List String
  | [] => []
  | [cause] => ["    " ++ cause]
  | causes => causes.zipIdx.map fun (cause, index) => s!"    {index}: " ++ cause

def errorReport (failure : Failure) : String :=
  match failure.chain with
  | [] => ""
  | [text] => "Error: " ++ text ++ "\n"
  | text :: causes =>
    "Error: " ++ text ++ "\n\nCaused by:\n" ++ "\n".intercalate (causeLines causes) ++ "\n"

/-- The events that a log of the level has, a line for each. -/
def logText (level : Level) (events : List Event) : String :=
  String.join ((events.filter fun event => level.admits event.level).map
    fun event => event.logLine ++ "\n")

def Answer.ofRun (level : Level) (run : Traced Failure Unit) : Answer :=
  match run.result with
  | .ok () => ⟨0, "", logText level run.events⟩
  | .error failure => ⟨1, "", logText level run.events ++ errorReport failure⟩

def usage : String :=
  "Usage: widener-remap [OPTIONS] <MAPPINGS> <INPUT> <OUTPUT>\n"

def help : String :=
  "Remaps an access widener file from one mapping namespace into another, using a tiny v2 " ++
  "mappings file.\n\n" ++ usage ++ "\n" ++
  "Options:\n" ++
  "      --from <FROM>        The namespace the input is in [default: intermediary]\n" ++
  "      --to <TO>            The namespace to remap into [default: named]\n" ++
  "      --package <PREFIX>   Package prefix of classes to remap inside of descriptors\n" ++
  "      --first-occurrence   Only replace the first occurrence of each class reference\n" ++
  "  -v, --verbose            Log more, can be given multiple times\n" ++
  "  -q, --quiet              Only log errors\n" ++
  "  -h, --help               Print help\n" ++
  "  -V, --version            Print version\n"

def Setting.name : Setting → String
  | .source => "--from"
  | .target => "--to"
  | .package => "--package"

def Flag.name : Flag → String
  | .firstOccurrence => "--first-occurrence"
  | .verbose => "--verbose"
  | .quiet => "--quiet"
  | .help => "--help"
  | .version => "--version"

def UsageError.message : UsageError → String
  | .unknownArgument argument => "unexpected argument " ++ argument.quoted
  | .missingValue setting => "a value is required for " ++ setting.name
  | .emptyPath => "a path must not be empty"
  | .repeatedSetting setting => setting.name ++ " cannot be used multiple times"
  | .repeatedFlag flag => flag.name ++ " cannot be used multiple times"
  | .quietAndVerbose => "--quiet cannot be used with --verbose"
  | .unexpectedValue flag => flag.name ++ " takes no value"
  | .missingPaths => "the paths of mappings, input and output are required"

def Answer.ofRefusal : Refusal → Answer
  | .help => ⟨0, help, ""⟩
  | .version => ⟨0, "widener-remap 0.1.0\n", ""⟩
  | .usage error => ⟨2, "", "error: " ++ error.message ++ "\n\n" ++ usage⟩

def run (arguments : List Text) : m Answer := do
  match parse arguments with
  | .error refusal => return .ofRefusal refusal
  | .ok options =>
    let result ← execute options
    return .ofRun options.level (← Files.dropFailure result)

end Renaming.Command
