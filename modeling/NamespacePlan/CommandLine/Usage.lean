import NamespacePlan.Text.Quoted

/-!
How the commands are used: their names, the options they take, what they say about themselves and how
they refuse arguments.
-/

namespace NamespacePlan.CommandLine

inductive Takes where
  | nothing
  | value
  | oneOf (choices : List String)
  deriving DecidableEq, Repr

structure Opt where
  names : List String
  takes : Takes
  deriving DecidableEq, Repr

def Opt.label (o : Opt) : String := String.intercalate "/" o.names

def helpOption : Opt := ⟨["-h", "--help"], .nothing⟩

inductive Command where
  | top
  | namespaces
  | plan
  deriving DecidableEq, Repr

namespace Command

def words : List (String × Command) := [("namespaces", namespaces), ("plan", plan)]

def name : Command → String
  | top => "ublgen"
  | namespaces => "ublgen namespaces"
  | plan => "ublgen plan"

def commonOptions : List Opt := [helpOption, ⟨["--root"], .value⟩, ⟨["--config"], .value⟩]

def options : Command → List Opt
  | top => [helpOption, ⟨["--log-level"], .value⟩, ⟨["--log-json"], .nothing⟩]
  | namespaces => commonOptions
  | plan =>
    commonOptions ++
      [⟨["--optimize", "--no-optimize"], .nothing⟩, ⟨["--strict", "--no-strict"], .nothing⟩,
       ⟨["--format"], .oneOf ["json", "yaml"]⟩, ⟨["--output"], .value⟩]

def usage : Command → String
  | top => "usage: ublgen [-h] [--log-level LOG_LEVEL] [--log-json] \x7bnamespaces,plan\x7d ...\n"
  | namespaces =>
    "usage: ublgen namespaces [-h] [--root ROOT] [--config CONFIG] [schema_dir]\n"
  | plan =>
    "usage: ublgen plan [-h] [--root ROOT] [--config CONFIG]\n" ++
    "                   [--optimize | --no-optimize] [--strict | --no-strict]\n" ++
    "                   [--format \x7bjson,yaml\x7d] [--output OUTPUT]\n" ++
    "                   [schema_dir]\n"

def details : Command → String
  | top =>
    "\n" ++
    "UblGen CLI - Resolve UBL schema namespaces into code namespaces and imports.\n" ++
    "\n" ++
    "positional arguments:\n" ++
    "  \x7bnamespaces,plan\x7d\n" ++
    "    namespaces          Print the namespace table as JSON.\n" ++
    "    plan                Resolve every schema into a unit manifest.\n" ++
    "\n" ++
    "options:\n" ++
    "  -h, --help            show this help message and exit\n" ++
    "  --log-level LOG_LEVEL\n" ++
    "                        Logging level (default: WARNING).\n" ++
    "  --log-json            Emit diagnostics as JSON lines.\n"
  | namespaces =>
    "\n" ++
    "positional arguments:\n" ++
    "  schema_dir       Directory holding the UBL .xsd files.\n" ++
    "\n" ++
    "options:\n" ++
    "  -h, --help       show this help message and exit\n" ++
    "  --root ROOT      Root output namespace (default: Ubl).\n" ++
    "  --config CONFIG  YAML or JSON configuration file.\n"
  | plan =>
    "\n" ++
    "positional arguments:\n" ++
    "  schema_dir            Directory holding the UBL .xsd files.\n" ++
    "\n" ++
    "options:\n" ++
    "  -h, --help            show this help message and exit\n" ++
    "  --root ROOT           Root output namespace (default: Ubl).\n" ++
    "  --config CONFIG       YAML or JSON configuration file.\n" ++
    "  --optimize, --no-optimize\n" ++
    "                        Use the optimized dependency graph (default: from\n" ++
    "                        config, else off).\n" ++
    "  --strict, --no-strict\n" ++
    "                        Fail on unknown XML namespaces (default: from config,\n" ++
    "                        else off).\n" ++
    "  --format \x7bjson,yaml\x7d  Manifest format (default: json)\n" ++
    "  --output OUTPUT       Output file path (default: stdout)\n"

def help (c : Command) : String := c.usage ++ c.details

end Command

inductive Misuse where
  | missingCommand
  | badCommand (word : String)
  | unrecognized (words : List String)
  | missingValue (o : Opt)
  | badChoice (o : Opt) (value : String) (choices : List String)
  | ambiguous (word : String) (names : List String)
  | ignoredValue (o : Opt) (value : String)
  deriving DecidableEq, Repr

def choiceText (choices : List String) : String :=
  "(choose from " ++ String.intercalate ", " (choices.map Text.quoted) ++ ")"

def Misuse.message : Misuse → String
  | missingCommand => "the following arguments are required: command"
  | badCommand word =>
    "argument command: invalid choice: " ++ Text.quoted word ++ " " ++
      choiceText (Command.words.map Prod.fst)
  | unrecognized words => "unrecognized arguments: " ++ String.intercalate " " words
  | missingValue o => "argument " ++ o.label ++ ": expected one argument"
  | badChoice o value choices =>
    "argument " ++ o.label ++ ": invalid choice: " ++ Text.quoted value ++ " " ++ choiceText choices
  | ambiguous word names =>
    "ambiguous option: " ++ word ++ " could match " ++ String.intercalate ", " names
  | ignoredValue o value =>
    "argument " ++ o.label ++ ": ignored explicit argument " ++ Text.quoted value

inductive Stop where
  | help (c : Command)
  | misuse (c : Command) (m : Misuse)
  deriving DecidableEq, Repr

end NamespacePlan.CommandLine
