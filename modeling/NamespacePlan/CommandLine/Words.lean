import NamespacePlan.CommandLine.Usage
import NamespacePlan.Text.Numeric

/-!
The words of a command line. Before any of them counts, each is found to be an option, a plain word or
the mark behind which all words are plain. An option may be shortened as long as it is clear which one
is meant, and may carry its value behind an equals sign.
-/

namespace NamespacePlan.CommandLine

inductive Word where
  | plain (s : String)
  | mark
  | option (o : Opt) (name : String) (value : Option String)
  | unknown (s : String)
  deriving DecidableEq, Repr

namespace Word

def namesOf (os : List Opt) : List (String × Opt) := os.flatMap fun o => o.names.map (·, o)

def splitValue (s : String) : String × Option String :=
  let cs := s.toList
  let name := cs.takeWhile (· != '=')
  if name.length < cs.length then
    (String.ofList name, some (String.ofList (cs.drop (name.length + 1))))
  else (s, none)

/-- The value that letters behind the help option give it. It is the only option of one letter, so `h`
is it once more, any other letter is of no account, and a value stands behind a sign. -/
def clusterValue : List Char → Option String
  | 'h' :: rest => clusterValue rest
  | '=' :: value => some (String.ofList value)
  | '-' :: rest => some (String.ofList ('-' :: rest))
  | _ => none

/-- The options that a word beginning with a hyphen may mean: by the beginning of a name, or by a name
of one letter with more letters behind it. -/
def candidates (os : List Opt) (s : String) : List (Opt × String × Option String) :=
  match s.toList with
  | '-' :: '-' :: _ =>
    let (name, value) := splitValue s
    (namesOf os).filterMap fun e =>
      if name.toList.isPrefixOf e.1.toList then some (e.2, e.1, value) else none
  | '-' :: c :: rest =>
    (namesOf os).filterMap fun e =>
      if e.1 = String.ofList ['-', c] then some (e.2, e.1, clusterValue rest)
      else if s.toList.isPrefixOf e.1.toList then some (e.2, e.1, none)
      else none
  | _ => []

/-- A number below zero, which is a plain word. -/
def isNegativeNumber (s : String) : Bool :=
  let body := match s.toList with
    | '-' :: cs => if cs.getLast? = some '\n' then cs.dropLast else cs
    | _ => []
  let digits := body.takeWhile Text.isDecimal
  match body.drop digits.length with
  | [] => !digits.isEmpty
  | c :: rest => c == '.' && !rest.isEmpty && rest.all Text.isDecimal

def ofHyphen (os : List Opt) (s : String) : Except Misuse Word :=
  let (name, value) := splitValue s
  match (namesOf os).lookup s, (namesOf os).lookup name with
  | some o, _ => .ok (option o s none)
  | none, some o => .ok (option o name value)
  | none, none =>
    match candidates os s with
    | [(o, name, value)] => .ok (option o name value)
    | [] =>
      if isNegativeNumber s || s.toList.contains ' ' then .ok (plain s) else .ok (unknown s)
    | many => .error (.ambiguous s (many.map fun m => m.2.1))

def of (os : List Opt) (s : String) : Except Misuse Word :=
  match s.toList with
  | '-' :: _ :: _ => ofHyphen os s
  | _ => .ok (plain s)

def all (os : List Opt) : List String → Except Misuse (List Word)
  | [] => .ok []
  | s :: rest =>
    if s = "--" then .ok (mark :: rest.map plain)
    else
      match of os s, all os rest with
      | .ok w, .ok ws => .ok (w :: ws)
      | .error m, _ => .error m
      | .ok _, .error m => .error m

end Word

structure Given where
  name : String
  value : Option String
  deriving DecidableEq, Repr

def lastValue? (name : String) (gs : List Given) : Option String :=
  (gs.reverse.find? fun g => g.name == name).bind Given.value

def lastSwitch? (on off : String) (gs : List Given) : Option Bool :=
  (gs.reverse.find? fun g => g.name == on || g.name == off).map fun g => g.name == on

def withValue (c : Command) (o : Opt) (name value : String) : Except Stop Given :=
  match o.takes with
  | .nothing => .error (.misuse c (.ignoredValue o value))
  | .value => .ok ⟨name, some value⟩
  | .oneOf choices =>
    if choices.contains value then .ok ⟨name, some value⟩
    else .error (.misuse c (.badChoice o value choices))

def withoutValue (c : Command) (o : Opt) (name : String) : Except Stop Given :=
  if o = helpOption then .error (.help c) else .ok ⟨name, none⟩

/-- An option and the words behind it: the option with its value, and the words that are left. -/
def takeOption (c : Command) (o : Opt) (name : String) (value : Option String) (ws : List Word) :
    Except Stop (Given × List Word) :=
  match value, o.takes, ws with
  | some v, _, ws => (withValue c o name v).map (·, ws)
  | none, .nothing, ws => (withoutValue c o name).map (·, ws)
  | none, _, .plain v :: ws => (withValue c o name v).map (·, ws)
  | none, _, _ => .error (.misuse c (.missingValue o))

end NamespacePlan.CommandLine
