import Renaming.Event
import Renaming.Settings

/-!
# Command line arguments

`parse` reads options and three paths, in any order. What an argument means is only taken over
when the next one has been recognised (`Draft.settle`), so an argument that is not recognised at all
is reported before a bad one that precedes it.
-/

namespace Renaming.Command

/-- What a run is asked to do. -/
structure Options where
  mappings : Text
  input : Text
  output : Text
  settings : Settings
  level : Level
  deriving DecidableEq, Repr

/-- An option that takes a value. -/
inductive Setting where
  | source
  | target
  | package
  deriving DecidableEq, Repr

inductive Flag where
  | firstOccurrence
  | verbose
  | quiet
  | help
  | version
  deriving DecidableEq, Repr

inductive UsageError where
  | unknownArgument (argument : Text)
  | missingValue (setting : Setting)
  | emptyPath
  | repeatedSetting (setting : Setting)
  | repeatedFlag (flag : Flag)
  | quietAndVerbose
  | unexpectedValue (flag : Flag)
  | missingPaths
  deriving DecidableEq, Repr

/-- Why arguments do not ask for a run. -/
inductive Refusal where
  | help
  | version
  | usage (error : UsageError)
  deriving DecidableEq, Repr

inductive LongName where
  | setting (setting : Setting)
  | flag (flag : Flag)
  deriving DecidableEq, Repr

def longNames : List (Text × LongName) :=
  [("from".toList, .setting .source), ("to".toList, .setting .target),
    ("package".toList, .setting .package), ("first-occurrence".toList, .flag .firstOccurrence),
    ("verbose".toList, .flag .verbose), ("quiet".toList, .flag .quiet),
    ("help".toList, .flag .help), ("version".toList, .flag .version)]

def shortNames : List (Char × Flag) :=
  [('v', .verbose), ('q', .quiet), ('h', .help), ('V', .version)]

/-- What has been recognised and not yet taken over. -/
inductive Pending where
  | nothing
  | setting (setting : Setting) (value : Option Text)
  | path (path : Text)
  deriving DecidableEq, Repr

structure Draft where
  source : Option Text
  target : Option Text
  packages : List Text
  firstOccurrence : Bool
  quiet : Bool
  verbosity : Nat
  paths : List Text
  pending : Pending
  deriving DecidableEq, Repr

namespace Draft

def blank : Draft := ⟨none, none, [], false, false, 0, [], .nothing⟩

def assign (draft : Draft) (setting : Setting) (value : Text) : Except Refusal Draft :=
  match setting with
  | .source =>
    if draft.source.isSome then .error (.usage (.repeatedSetting .source))
    else .ok { draft with source := some value }
  | .target =>
    if draft.target.isSome then .error (.usage (.repeatedSetting .target))
    else .ok { draft with target := some value }
  | .package => .ok { draft with packages := draft.packages ++ [value] }

/-- Takes over what is pending. -/
def settle (draft : Draft) : Except Refusal Draft :=
  match draft.pending with
  | .nothing => .ok draft
  | .setting setting none => .error (.usage (.missingValue setting))
  | .setting setting (some value) => { draft with pending := .nothing }.assign setting value
  | .path path =>
    if path.isEmpty then .error (.usage .emptyPath)
    else .ok { draft with paths := draft.paths ++ [path], pending := .nothing }

def raise (draft : Draft) (flag : Flag) : Except Refusal Draft := do
  let draft ← draft.settle
  match flag with
  | .firstOccurrence =>
    if draft.firstOccurrence then throw (.usage (.repeatedFlag flag))
    return { draft with firstOccurrence := true }
  | .quiet =>
    if draft.quiet then throw (.usage (.repeatedFlag flag))
    return { draft with quiet := true }
  | .verbose => return { draft with verbosity := draft.verbosity + 1 }
  | .help => throw .help
  | .version => throw .version

def raiseAll (draft : Draft) (argument : Text) : Text → Except Refusal Draft
  | [] => .ok draft
  | c :: rest =>
    match shortNames.lookup c with
    | some flag => do
      let draft ← draft.raise flag
      draft.raiseAll argument rest
    | none => .error (.usage (.unknownArgument argument))

/-- Reads what follows two hyphens: a name, and behind a `=` a value. -/
def long (draft : Draft) (text : Text) : Except Refusal Draft :=
  let name := text.takeWhile (· != '=')
  let value := (text.dropWhile (· != '=')).tail?
  match longNames.lookup name, value with
  | none, _ => .error (.usage (.unknownArgument (['-', '-'] ++ name)))
  | some (.setting setting), some value => do
    let draft ← draft.settle
    draft.assign setting value
  | some (.setting setting), none => do
    let draft ← draft.settle
    return { draft with pending := .setting setting none }
  | some (.flag flag), some _ => .error (.usage (.unexpectedValue flag))
  | some (.flag flag), none => draft.raise flag

def pathCount (draft : Draft) : Nat :=
  match draft.pending with
  | .path _ => draft.paths.length + 1
  | _ => draft.paths.length

def path (draft : Draft) (argument : Text) : Except Refusal Draft :=
  if 3 ≤ draft.pathCount then .error (.usage (.unknownArgument argument))
  else do
    let draft ← draft.settle
    return { draft with pending := .path argument }

/-- Reads an argument that is no option: the value of the option before it, or a path. -/
def plain (draft : Draft) (argument : Text) : Except Refusal Draft :=
  match draft.pending with
  | .setting setting none => .ok { draft with pending := .setting setting (some argument) }
  | _ => draft.path argument

/-- Reads all arguments. After `--` they are paths. -/
def read (draft : Draft) : List Text → Except Refusal Draft
  | [] => draft.settle
  | argument :: rest =>
    match argument with
    | ['-', '-'] => do
      let draft ← rest.foldlM path draft
      draft.settle
    | '-' :: '-' :: text => do
      let draft ← draft.long text
      draft.read rest
    | '-' :: c :: text => do
      let draft ← draft.raiseAll argument (c :: text)
      draft.read rest
    | _ => do
      let draft ← draft.plain argument
      draft.read rest

def level (draft : Draft) : Level :=
  if draft.quiet then .error
  else
    match draft.verbosity with
    | 0 => .warn
    | 1 => .info
    | 2 => .debug
    | _ => .trace

def settings (draft : Draft) : Settings where
  source := draft.source.getD Settings.standard.source
  target := draft.target.getD Settings.standard.target
  packages := if draft.packages.isEmpty then Settings.standard.packages else draft.packages
  substitution := if draft.firstOccurrence then .firstOccurrence else .positional

def options (draft : Draft) : Except Refusal Options :=
  if draft.quiet && draft.verbosity != 0 then .error (.usage .quietAndVerbose)
  else
    match draft.paths with
    | [mappings, input, output] => .ok ⟨mappings, input, output, draft.settings, draft.level⟩
    | _ => .error (.usage .missingPaths)

end Draft

def parse (arguments : List Text) : Except Refusal Options := do
  let draft ← Draft.blank.read arguments
  draft.options

end Renaming.Command
