import NamespacePlan.Event
import NamespacePlan.Json.Writer
import NamespacePlan.Text.Split
import NamespacePlan.Text.Uppercase

/-!
Events as lines of a log: which of them pass a threshold, and the two forms of a line.
-/

namespace NamespacePlan

namespace Log

def thresholds : List (String × Nat) :=
  [("CRITICAL", 50), ("FATAL", 50), ("ERROR", 40), ("WARN", 30), ("WARNING", 30), ("INFO", 20),
   ("DEBUG", 10), ("NOTSET", 0)]

def threshold? (name : String) : Option Nat :=
  thresholds.lookup (String.ofList (Text.upper name.toList))

def passing (least : Nat) (es : List Event) : List Event :=
  es.filter fun e => least ≤ e.level.weight

inductive Form where
  | plain
  | json
  deriving DecidableEq, Repr

def line (form : Form) (time : String) (e : Event) : String :=
  match form with
  | .plain => e.level.name ++ " " ++ e.source ++ ": " ++ e.message ++ "\n"
  | .json =>
    let field := fun (key value : String) => Json.string key ++ [':', ' '] ++ Json.string value
    String.ofList ('\x7b' :: Text.joinWith [',', ' ']
      [field "asctime" time, field "name" e.source, field "levelname" e.level.name,
       field "message" e.message] ++ ['\x7d', '\n'])

end Log

end NamespacePlan
