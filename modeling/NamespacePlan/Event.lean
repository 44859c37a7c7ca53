/-!
What a run reports while it works. A `Reported` computation keeps the events it made before it failed,
so the two ways of ending show the same history up to the failure.
-/

namespace NamespacePlan

inductive Level where
  | debug
  | info
  | warning
  deriving DecidableEq, Repr

/-- The weight of a level; a threshold lets pass what weighs at least as much. -/
def Level.weight : Level → Nat
  | .debug => 10
  | .info => 20
  | .warning => 30

def Level.name : Level → String
  | .debug => "DEBUG"
  | .info => "INFO"
  | .warning => "WARNING"

inductive Event where
  | tableBuilt (keys outputs : Nat) (root : String)
  | unknownNamespace (uri : String)
  | importsResolved (count : Nat) (output : String)
  | schemasLoaded (count maindocs : Nat) (directory : String)
  deriving DecidableEq, Repr

namespace Event

def level : Event → Level
  | tableBuilt .. => .debug
  | unknownNamespace _ => .warning
  | importsResolved .. => .debug
  | schemasLoaded .. => .info

def source : Event → String
  | tableBuilt .. => "ublgen.namespaces"
  | unknownNamespace _ => "ublgen.namespaces"
  | importsResolved .. => "ublgen.imports"
  | schemasLoaded .. => "ublgen.loader"

def message : Event → String
  | tableBuilt keys outputs root =>
    "Mapped " ++ toString keys ++ " XML namespaces onto " ++ toString outputs ++
      " output namespaces under '" ++ root ++ "'"
  | unknownNamespace uri => "Don't know how to handle xml namespace " ++ uri
  | importsResolved count output =>
    "Resolved " ++ toString count ++ " imports for " ++ output
  | schemasLoaded count maindocs directory =>
    "Loaded " ++ toString count ++ " schemas (" ++ toString maindocs ++
      " main documents) from " ++ directory

end Event

/-- A computation with its events, in the order they happened. -/
structure Reported (ε α : Type) where
  events : List Event
  outcome : Except ε α

namespace Reported

variable {ε α β : Type}

def fail (e : ε) : Reported ε α := ⟨[], .error e⟩

def report (e : Event) : Reported ε Unit := ⟨[e], .ok ()⟩

def ofExcept (x : Except ε α) : Reported ε α := ⟨[], x⟩

/-- Goes on after a success; a failure ends the computation and keeps its events. -/
def andThen (x : Reported ε α) (f : α → Reported ε β) : Reported ε β :=
  match x.outcome with
  | .error e => ⟨x.events, .error e⟩
  | .ok a => ⟨x.events ++ (f a).events, (f a).outcome⟩

instance : Monad (Reported ε) where
  pure a := ⟨[], .ok a⟩
  bind := andThen

def mapError {δ : Type} (f : ε → δ) (x : Reported ε α) : Reported δ α :=
  ⟨x.events, x.outcome.mapError f⟩

@[simp] theorem outcome_pure (a : α) : (pure a : Reported ε α).outcome = .ok a := rfl

@[simp] theorem events_pure (a : α) : (pure a : Reported ε α).events = [] := rfl

theorem bind_of_error {x : Reported ε α} {e : ε} (h : x.outcome = .error e)
    (f : α → Reported ε β) : x >>= f = ⟨x.events, .error e⟩ := by
  change andThen x f = _
  simp [andThen, h]

theorem bind_of_ok {x : Reported ε α} {a : α} (h : x.outcome = .ok a) (f : α → Reported ε β) :
    x >>= f = ⟨x.events ++ (f a).events, (f a).outcome⟩ := by
  change andThen x f = _
  simp [andThen, h]

theorem id_map (x : Reported ε α) : id <$> x = x := by
  cases x with
  | mk events outcome => cases outcome <;> simp [Functor.map, andThen]

theorem pure_bind (a : α) (f : α → Reported ε β) : pure a >>= f = f a := by
  simp [bind, pure, andThen]

theorem bind_assoc {γ : Type} (x : Reported ε α) (f : α → Reported ε β)
    (g : β → Reported ε γ) : x >>= f >>= g = x >>= fun a => f a >>= g := by
  cases x with
  | mk events outcome =>
    cases outcome with
    | error e => rfl
    | ok a =>
      simp only [bind, andThen]
      cases (f a).outcome <;> simp [List.append_assoc]

instance : LawfulMonad (Reported ε) := LawfulMonad.mk' _ id_map pure_bind bind_assoc

end Reported

end NamespacePlan
