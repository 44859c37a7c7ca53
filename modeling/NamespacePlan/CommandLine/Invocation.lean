import NamespacePlan.CommandLine.Words
import NamespacePlan.Log
import NamespacePlan.Manifest

/-!
What a command line asks for. The options of the program come before the command, those of the command
behind it; words that have no place are refused together, after everything else.
-/

namespace NamespacePlan.CommandLine

structure Source where
  schemaDir : Option String := none
  root : Option String := none
  config : Option String := none
  deriving DecidableEq, Repr

structure PlanOptions where
  optimize : Option Bool := none
  strict : Option Bool := none
  format : Manifest.Format := .json
  output : Option String := none
  deriving DecidableEq, Repr

inductive Task where
  | namespaces
  | plan (o : PlanOptions)
  deriving DecidableEq, Repr

structure Invocation where
  logLevel : String := "WARNING"
  logForm : Log.Form := .plain
  source : Source
  task : Task
  deriving DecidableEq, Repr

/-- The words of a command that have been read: its options, its only plain word, and words without a
place. -/
structure Sorted where
  given : List Given := []
  place : Option String := none
  extra : List String := []
  deriving DecidableEq, Repr

def plainRun : List Word → List String × List Word
  | .plain s :: ws => ((plainRun ws).1.cons s, (plainRun ws).2)
  | .mark :: ws => ((plainRun ws).1.cons "--", (plainRun ws).2)
  | ws => ([], ws)

/-- The plain word at the beginning of some, with the mark in front of it or else behind it, and the
words that are left. -/
def firstPlain : List Word → Option String × List Word
  | .mark :: .plain s :: ws => (some s, ws)
  | .mark :: ws => (none, ws)
  | .plain s :: .mark :: ws => (some s, ws)
  | .plain s :: ws => (some s, ws)
  | ws => (none, ws)

/-- Sorts the words of a command; `placeOpen` tells that its plain word may still come. -/
def sortWords (c : Command) (placeOpen : Bool) : Nat → List Word → Sorted → Except Stop Sorted
  | 0, _, s => .ok s
  | _, [], s => .ok s
  | fuel + 1, .option o name value :: ws, s => do
    let (g, ws) ← takeOption c o name value ws
    sortWords c placeOpen fuel ws { s with given := s.given ++ [g] }
  | fuel + 1, .unknown w :: ws, s =>
    sortWords c placeOpen fuel ws { s with extra := s.extra ++ [w] }
  | fuel + 1, ws, s =>
    let (place, ws) := if placeOpen then firstPlain ws else (none, ws)
    let (extra, ws) := plainRun ws
    sortWords c false fuel ws
      { s with place := s.place.or place, extra := s.extra ++ extra }

def sorted (c : Command) (args : List String) : Except Stop Sorted :=
  match Word.all c.options args with
  | .error m => .error (.misuse c m)
  | .ok ws => sortWords c true (ws.length + 1) ws {}

def taskOf (c : Command) (s : Sorted) : Source × Task :=
  let source : Source :=
    { schemaDir := s.place, root := lastValue? "--root" s.given
      config := lastValue? "--config" s.given }
  match c with
  | .plan =>
    (source, .plan
      { optimize := lastSwitch? "--optimize" "--no-optimize" s.given
        strict := lastSwitch? "--strict" "--no-strict" s.given
        format := if lastValue? "--format" s.given = some "yaml" then .yaml else .json
        output := lastValue? "--output" s.given })
  | _ => (source, .namespaces)

/-- The words in front of the command, the command, and all words behind it as they were given.
Everything behind the command belongs to it. -/
structure Opening where
  given : List Given := []
  extra : List String := []
  word : Option String := none
  behind : List String := []
  deriving DecidableEq, Repr

/-- Reads the words up to the command; `args` are the same words as they were given. -/
def openingOf : Nat → List Word → List String → Opening → Except Stop Opening
  | 0, _, _, s => .ok s
  | _, [], _, s => .ok s
  | fuel + 1, .option o name value :: ws, args, s => do
    let (g, rest) ← takeOption .top o name value ws
    openingOf fuel rest (args.drop (args.length - rest.length)) { s with given := s.given ++ [g] }
  | fuel + 1, .unknown w :: ws, args, s =>
    openingOf fuel ws (args.drop 1) { s with extra := s.extra ++ [w] }
  | _, .plain w :: _, args, s => .ok { s with word := some w, behind := args.drop 1 }
  | _, [.mark], _, s => .ok { s with extra := s.extra ++ ["--"] }
  | _, .mark :: _, args, s => .ok { s with word := some "--", behind := args.drop 1 }

def logFormOf (gs : List Given) : Log.Form :=
  if gs.any fun g => g.name == "--log-json" then .json else .plain

def read (args : List String) : Except Stop Invocation :=
  match Word.all (Command.options .top) args with
  | .error m => .error (.misuse .top m)
  | .ok ws => do
    let s ← openingOf (ws.length + 1) ws args {}
    match s.word with
    | none => .error (.misuse .top .missingCommand)
    | some word =>
      match Command.words.lookup word with
      | none => .error (.misuse .top (.badCommand word))
      | some c =>
        let inner ← sorted c s.behind
        let extra := s.extra ++ inner.extra
        if extra.isEmpty then
          let (source, task) := taskOf c inner
          .ok
            { logLevel := (lastValue? "--log-level" s.given).getD "WARNING"
              logForm := logFormOf s.given
              source := source
              task := task }
        else .error (.misuse .top (.unrecognized extra))

end NamespacePlan.CommandLine
