import Renaming.Fault
import Renaming.Kind
import Renaming.Text.Quoted

/-!
# Failures

A failure has a cause and, outermost first, the contexts it passed through on the way out. `chain`
gives their texts, `message` puts these on one line.
-/

namespace Renaming

inductive RowKind where
  | header
  | entry (kind : Kind)
  deriving DecidableEq, Repr

def RowKind.name : RowKind → String
  | .header => "header"
  | .entry kind => kind.name

/-- A row with fewer columns than its kind needs. -/
structure ShortRow where
  line : Nat
  kind : RowKind
  expected : Nat
  found : Nat
  raw : Text
  deriving DecidableEq, Repr

def ShortRow.message : ShortRow → String
  | ⟨line, kind, expected, found, raw⟩ =>
    s!"line {line}: a " ++ kind.name ++ s!" row needs at least {expected} columns, " ++
      s!"but has {found}: " ++ raw.quoted

/-- A class that a descriptor refers to and the dictionary does not know. -/
structure MissingClass where
  name : Text
  descriptor : Text
  deriving DecidableEq, Repr

def MissingClass.message (missing : MissingClass) : String :=
  "no class mapping for " ++ missing.name.quoted ++ ", referenced in descriptor " ++
    missing.descriptor.quoted

inductive Cause where
  | shortRow (row : ShortRow)
  | missingClass (line : Option Nat) (missing : MissingClass)
  | unknownNamespace (name : Text) (available : List Text)
  | io (fault : Fault)
  deriving DecidableEq, Repr

def Cause.message : Cause → String
  | .shortRow row => row.message
  | .missingClass none missing => missing.message
  | .missingClass (some line) missing => s!"line {line}: " ++ missing.message
  | .unknownNamespace name available =>
    "namespace " ++ name.quoted ++ " is not one of the mapping namespaces " ++
      Text.quotedList available
  | .io fault => fault.message

inductive Context where
  | headerLine
  | readingLine (line : Nat)
  | inLine (line : Nat)
  | descriptorOf (kind : Kind) (owner name : Text)
  | writingLine (line : Nat)
  | flushing
  | openingMappings (path : Text)
  | readingMappings (path : Text)
  | openingInput (path : Text)
  | creatingTemporary (directory : Text)
  | renamingFile (input output : Text)
  | syncing (temporary : Text)
  | movingTo (output : Text)
  | persisting (error : SystemError)
  deriving DecidableEq, Repr

def Context.message : Context → String
  | .headerLine => "in header line 1"
  | .readingLine line => s!"failed to read line {line}"
  | .inLine line => s!"in line {line}"
  | .descriptorOf kind owner name =>
    "failed to remap the descriptor of " ++ kind.name ++ " " ++ String.ofList owner ++ "." ++
      String.ofList name
  | .writingLine line => s!"failed to write line {line}"
  | .flushing => "failed to flush output"
  | .openingMappings path => "failed to open mappings file " ++ path.quoted
  | .readingMappings path => "failed to read mappings file " ++ path.quoted ++ " as tiny v2 file"
  | .openingInput path => "failed to open input file " ++ path.quoted
  | .creatingTemporary directory =>
    "failed to create a temporary file in " ++ directory.quoted
  | .renamingFile input output => "failed to remap " ++ input.quoted ++ " into " ++ output.quoted
  | .syncing temporary => "failed to sync " ++ temporary.quoted
  | .movingTo output => "failed to move the remapped file to " ++ output.quoted
  | .persisting error => "failed to persist temporary file: " ++ error.message

structure Failure where
  contexts : List Context
  cause : Cause
  deriving DecidableEq, Repr

namespace Failure

def of (cause : Cause) : Failure := ⟨[], cause⟩

def within (context : Context) (failure : Failure) : Failure :=
  { failure with contexts := context :: failure.contexts }

/-- The texts of the contexts and last the text of the cause. There is always at least one. -/
def chain (failure : Failure) : List String :=
  failure.contexts.map Context.message ++ [failure.cause.message]

def message (failure : Failure) : String := ": ".intercalate failure.chain

end Failure

end Renaming
