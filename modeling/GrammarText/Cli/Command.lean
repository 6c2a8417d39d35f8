import GrammarText.Cli.Help
import GrammarText.Context.Toml

/-!
The command line.

A command is the name of what to do and its options. The value of an option follows it or is
attached to it; every option but `--set` may be given once.

- `Command.parse`: reads the arguments of a command line.
-/

namespace GrammarText

inductive Command where
  | version
  | help (topic : Topic)
  | generate (config : String) (output : Option String) (overrides : List (String × Value))
  | check (config : String)
  | describe (config : String)

namespace Command

def defaultConfig : String := "larkspur.toml"

/-- An option that takes a value. -/
inductive OptionName where
  | config
  | output
  | set
  deriving DecidableEq, Repr

/-- What an argument is. -/
inductive Argument where
  | help
  /-- An option, with the value that is attached to it, if any. -/
  | option (name : OptionName) (attached : Option String)

/-- The options of a command. -/
structure OptionTable where
  long : List (String × OptionName)
  short : List (Char × OptionName)

def commonOptions : OptionTable := ⟨[("config", .config)], [('c', .config)]⟩

def generateOptions : OptionTable :=
  ⟨[("config", .config), ("output", .output), ("set", .set)], [('c', .config), ('o', .output)]⟩

/-- Reads an argument behind its two dashes. -/
def longArgument? (table : OptionTable) (body : List Char) : Option Argument :=
  let name := String.ofList (body.takeWhile (· ≠ '='))
  let attached := match body.dropWhile (· ≠ '=') with
    | [] => none
    | _ :: value => some (String.ofList value)
  if name = "help" ∧ attached = none then some .help
  else (table.long.lookup name).map fun option => .option option attached

/-- Reads an argument behind its one dash. An attached value may have an equals sign before it. -/
def shortArgument? (table : OptionTable) : List Char → Option Argument
  | [] => none
  | 'h' :: _ => some .help
  | c :: body => (table.short.lookup c).map fun option =>
    .option option (match body with
      | [] => none
      | '=' :: value => some (String.ofList value)
      | value => some (String.ofList value))

/-- Reads an argument that is not a value. -/
def argument? (table : OptionTable) (arg : String) : Option Argument :=
  match arg.toList with
  | '-' :: '-' :: body => longArgument? table body
  | '-' :: body => shortArgument? table body
  | _ => none

/-- Whether an argument may be the value of the option before it: it does not begin with a dash, or
is nothing but a dash. -/
def isValue (arg : String) : Bool := arg = "-" || !arg.startsWith "-"

/-- The options given so far. -/
structure Given where
  config : Option String := none
  output : Option String := none
  overrides : List (String × Value) := []

/-- Takes an option with its value; a path must not be empty. -/
def Given.take? [Toml.Library] (given : Given) (name : OptionName) (value : String) :
    Option Given :=
  match name with
  | .config =>
    if given.config.isSome || value = "" then none else some { given with config := value }
  | .output =>
    if given.output.isSome || value = "" then none else some { given with output := value }
  | .set => (Context.parseAssignment? value).map fun pair =>
      { given with overrides := given.overrides ++ [pair] }

/-- Reads options up to the end, or to a call for help. -/
def options? [Toml.Library] (table : OptionTable) (given : Given) :
    List String → Option (Option Given)
  | [] => some given
  | ["--"] => some given
  | arg :: rest => match argument? table arg with
    | none => none
    | some .help => some none
    | some (.option name (some value)) => match given.take? name value with
      | none => none
      | some given => options? table given rest
    | some (.option name none) => match rest with
      | [] => none
      | value :: rest =>
        if isValue value then match given.take? name value with
          | none => none
          | some given => options? table given rest
        else none

/-- Reads the options of a command, where a call for help is a call for its topic. -/
def withOptions [Toml.Library] (topic : Topic) (table : OptionTable) (args : List String)
    (command : Given → Command) : Option Command :=
  (options? table {} args).map fun given => (given.map command).getD (help topic)

/-- Reads the topic that help is wanted on. -/
def topic? : List String → Option Topic
  | [] => some .program
  | [name] => Topic.ofName? name
  | _ => none

/-- Reads the arguments of a command line, or refuses them. -/
def parse [Toml.Library] : List String → Option Command
  | [] => none
  | arg :: rest =>
    if arg = "generate" then withOptions .generate generateOptions rest fun given =>
      generate (given.config.getD defaultConfig) given.output given.overrides
    else if arg = "check" then withOptions .check commonOptions rest fun given =>
      check (given.config.getD defaultConfig)
    else if arg = "describe" then withOptions .describe commonOptions rest fun given =>
      describe (given.config.getD defaultConfig)
    else if arg = "help" then (topic? rest).map help
    else if arg = "--version" || "-V".isPrefixOf arg then some version
    else if arg = "--help" || "-h".isPrefixOf arg then some (help .program)
    else none

end Command

end GrammarText
