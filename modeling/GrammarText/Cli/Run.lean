import GrammarText.Cli.Command
import GrammarText.Cli.Files
import GrammarText.Grammar.Undefined
import GrammarText.Manifest.File
import GrammarText.Toml.Standard

/-!
What the commands do.

- `Command.run`: the effect of a command, given a way to read files: what it writes to the two
  outputs and, perhaps, a file that it writes first.
- `Command.runIn`: the effect of a command line on a working directory.

They take any library that reads TOML; the program runs with the standard one.
-/

namespace GrammarText

/-- How a run ends. -/
structure Report where
  code : Nat
  out : String := ""
  err : String := ""
  deriving DecidableEq, Repr, Inhabited

/-- What a command comes to. -/
inductive Effect where
  | report (r : Report)
  /-- Write a file, and report if that can be done. -/
  | writeFile (path content : String) (done : Report)

namespace Command

def versionText : String := "larkspur 0.3.0\n"

def usageError : Report := { code := 2, err := "error: invalid arguments\n" }

def manifestFailure (e : ManifestError) : Report :=
  { code := 1, err := "error: " ++ e.message ++ "\n" }

def writeFailure (path : String) : Report :=
  { code := 1, err := "error: failed to write " ++ path ++ "\n" }

/-- A count and the noun for it. -/
def counted (n : Nat) (noun : String) : String :=
  toString n ++ " " ++ noun ++ if n = 1 then "" else "s"

/-- One line for each context value. -/
def contextLines (c : Context) : String :=
  String.join (c.entries.map fun (key, v) => "    " ++ key ++ " = " ++ v.shown ++ "\n")

/-- The summary of a valid manifest. -/
def checkText (path : String) (g : Grammar) (c : Context) : String :=
  "✓ " ++ path ++ " is valid\n\n"
    ++ "  " ++ counted g.terminals.length "terminal" ++ "\n"
    ++ "  " ++ counted g.rules.length "rule" ++ "\n"
    ++ "  " ++ counted g.templates.length "template" ++ "\n"
    ++ "  " ++ counted g.directives.length "directive" ++ "\n"
    ++ if c.isEmpty then "" else "\n  " ++ counted c.size "context value" ++ ":\n" ++ contextLines c

/-- One warning for each name that nothing defines. -/
def warnings (names : List String) : String :=
  String.join (names.map fun name => "warning: '" ++ name ++ "' is referenced but never defined\n")

def runGenerate (f : ManifestFile) (output : Option String) (overrides : List (String × Value)) :
    Except ManifestError Effect := do
  let text ← f.generate (Context.ofList overrides)
  match output with
  | none => return .report { code := 0, out := text ++ "\n" }
  | some path =>
    return .writeFile path (text ++ "\n") { code := 0, out := "✓ Wrote " ++ path ++ "\n" }

def runCheck (f : ManifestFile) : Except ManifestError Effect := do
  let g ← f.grammar 0
  let names := g.undefinedReferences
  return .report {
    code := 0
    out := (if names.isEmpty then "" else "\n") ++ checkText f.path g f.manifest.context
    err := warnings names }

def runDescribe (f : ManifestFile) : Except ManifestError Effect := do
  let g ← f.grammar 0
  return .report { code := 0, out := g.describe ++ "\n" }

/-- Does something with the manifest file at a path. -/
def withManifest [Toml.Library] (read : String → Option ByteArray) (path : String)
    (act : ManifestFile → Except ManifestError Effect) : Effect :=
  match ManifestFile.read path (read path) >>= act with
  | .ok effect => effect
  | .error e => .report (manifestFailure e)

/-- What a command does, where `read` gives the bytes of a file, if it is there. -/
def run [Toml.Library] (read : String → Option ByteArray) : Command → Effect
  | version => .report { code := 0, out := versionText }
  | help topic => .report { code := 0, out := topic.text }
  | generate config output overrides =>
    withManifest read config fun f => runGenerate f output overrides
  | check config => withManifest read config runCheck
  | describe config => withManifest read config runDescribe

/-- The file that a command reads, if any. -/
def config? : Command → Option String
  | version | help _ => none
  | generate config .. | check config | describe config => some config

/-- Runs a command line in a working directory. -/
def runIn [Toml.Library] (files : Files) (args : List String) : Report × Files :=
  match parse args with
  | none => (usageError, files)
  | some command => match command.run files.read? with
    | .report r => (r, files)
    | .writeFile path content done => match files.write? path content.toUTF8 with
      | some files => (done, files)
      | none => (writeFailure path, files)

end Command

end GrammarText
