/-!
The help texts of the command line.

`Topic` is what one can ask about, the program as a whole or one of its commands, and `Topic.text`
the answer: what the topic does, how it is called, and its commands, arguments or options.
-/

namespace GrammarText

inductive Topic where
  | program
  | generate
  | check
  | describe
  | help
  deriving DecidableEq, Repr

namespace Topic

/-- The topic that a command's name stands for. -/
def ofName? (name : String) : Option Topic :=
  match name with
  | "generate" => some generate
  | "check" => some check
  | "describe" => some describe
  | "help" => some help
  | _ => none

def purpose : Topic → String
  | program => "Generate Lark grammars from TOML definitions"
  | generate => "Render the grammar from larkspur.toml"
  | check => "Validate larkspur.toml without rendering"
  | describe => "Print a debug dump of every definition"
  | help => "Print this message or the help of the given subcommand(s)"

def usage : Topic → String
  | program => "larkspur <COMMAND>"
  | generate => "larkspur generate [OPTIONS]"
  | check => "larkspur check [OPTIONS]"
  | describe => "larkspur describe [OPTIONS]"
  | help => "larkspur help [COMMAND]..."

/-- A part of a help text: its title, and its entries with an explanation each. -/
structure Part where
  title : String
  entries : List (String × String)

def configEntry : String × String :=
  ("-c, --config <CONFIG>",
    "Path to larkspur.toml (defaults to ./larkspur.toml) [default: larkspur.toml]")

def helpEntry : String × String := ("-h, --help", "Print help")

def parts : Topic → List Part
  | program =>
    [⟨"Commands", [("generate", generate.purpose), ("check", check.purpose),
        ("describe", describe.purpose), ("help", help.purpose)]⟩,
     ⟨"Options", [helpEntry, ("-V, --version", "Print version")]⟩]
  | generate =>
    [⟨"Options", [configEntry,
        ("-o, --output <OUTPUT>", "Write the grammar to a file instead of stdout"),
        ("    --set <KEY=VALUE>", "Set a context value, overriding [context] (repeatable)"),
        helpEntry]⟩]
  | check | describe => [⟨"Options", [configEntry, helpEntry]⟩]
  | help => [⟨"Arguments", [("[COMMAND]...", "Print help for the subcommand(s)")]⟩]

/-- The title of a part and its entries, with the explanations below each other. -/
def Part.text (part : Part) : String :=
  let width := (part.entries.map fun entry => entry.1.length).foldl max 0
  part.title ++ ":\n" ++ String.join (part.entries.map fun (entry, explanation) =>
    "  " ++ entry ++ String.ofList (List.replicate (width - entry.length + 2) ' ')
      ++ explanation ++ "\n")

def text (topic : Topic) : String :=
  topic.purpose ++ "\n\nUsage: " ++ topic.usage ++ "\n\n"
    ++ String.intercalate "\n" (topic.parts.map Part.text)

end Topic

end GrammarText
