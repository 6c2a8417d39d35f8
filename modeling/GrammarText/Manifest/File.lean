import GrammarText.Grammar.Generate
import GrammarText.Manifest.Basic
import GrammarText.Manifest.Span

/-!
Manifest files: the text of a manifest together with what is read from it.

- `ManifestFile.read`: reads a file and makes sure that its grammar can be built.
- `ManifestFile.generate`: the grammar text under the context of the file, with overrides laid
  over it.
- `ManifestError`: what is wrong with a file, and where.
-/

namespace GrammarText

inductive ManifestError where
  /-- The file cannot be read, or its bytes are no text. -/
  | unreadable (path : String)
  | malformed
  | definition (name : String) (cause : GrammarError) (span : Option Span)
  | render (cause : GrammarError)
  | validation (message : String) (span : Option Span)
  deriving DecidableEq, Repr

namespace ManifestError

def message : ManifestError → String
  | unreadable path => "failed to read '" ++ path ++ "'"
  | malformed => "failed to parse grammar manifest"
  | definition name .. => "invalid definition '" ++ name ++ "'"
  | render _ => "failed to render grammar"
  | validation message _ => message

def code? : ManifestError → Option String
  | malformed => some "larkspur::parse_error"
  | validation .. => some "larkspur::validation_error"
  | _ => none

def help? : ManifestError → Option String
  | unreadable _ => some "create a larkspur.toml or pass its path with --config"
  | _ => none

/-- The error of the grammar behind this one. -/
def cause? : ManifestError → Option GrammarError
  | definition _ cause _ => some cause
  | render cause => some cause
  | _ => none

/-- An error in the definition `name` of a source text. -/
def inDefinition (source name : String) (cause : GrammarError) : ManifestError :=
  definition name cause (nameSpan? source name)

/-- A violated rule about the definition `name` of a source text. -/
def inEntry (source name message : String) : ManifestError :=
  validation message (nameSpan? source name)

def ofFault (source : String) : Manifest.Fault → ManifestError
  | .definition name cause => inDefinition source name cause
  | .directiveContent name => inEntry source name (GrammarError.directiveContentMessage name)

end ManifestError

namespace Manifest

/-- Builds the grammar of a manifest that was read from a source text. -/
def buildFrom (m : Manifest) (source : String) (id : GrammarId) : Except ManifestError Grammar :=
  (m.build id).mapError (ManifestError.ofFault source)

/-- The manifest in a document, if its grammar can be built. -/
def read [Toml.Library] (source : String) : Except ManifestError Manifest :=
  match parse? source with
  | none => .error .malformed
  | some m => do
    let _ ← m.buildFrom source 0
    return m

end Manifest

structure ManifestFile where
  path : String
  source : String
  manifest : Manifest

namespace ManifestFile

/-- Reads a file from its bytes, if there are any at the path. -/
def read [Toml.Library] (path : String) (bytes : Option ByteArray) :
    Except ManifestError ManifestFile :=
  match bytes.bind String.fromUTF8? with
  | none => .error (.unreadable path)
  | some source => do
    let manifest ← Manifest.read source
    return { path, source, manifest }

def grammar (f : ManifestFile) (id : GrammarId) : Except ManifestError Grammar :=
  f.manifest.buildFrom f.source id

/-- The context of the file with overrides laid over it. -/
def context (f : ManifestFile) (overrides : Context) : Context := f.manifest.context.merge overrides

def generate (f : ManifestFile) (overrides : Context) : Except ManifestError String := do
  let g ← f.grammar 0
  (g.generate (f.context overrides)).mapError .render

end ManifestFile

end GrammarText
