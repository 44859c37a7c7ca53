import NamespacePlan.OrderedMap

/-!
What is known of one schema: the namespace it defines, the prefixes it binds, whether it is a main
document and where it lies. Two descriptors are equal when their bindings are, in whatever order they
were declared; `key` lists the bindings in one order for all of them.
-/

namespace NamespacePlan

structure Descriptor where
  target : String
  /-- The declared bindings, prefix to URI; the default namespace has the empty prefix. -/
  bindings : OrderedMap String String := OrderedMap.empty
  /-- Left open when nobody decided. -/
  maindoc : Option Bool := some false
  location : Option String := none

namespace Descriptor

def isMaindoc (d : Descriptor) : Bool := d.maindoc == some true

def sameBindings (m n : OrderedMap String String) : Bool :=
  m.entries.length == n.entries.length && m.entries.all fun e => n.get? e.1 == some e.2

/-- Equality up to the order of the bindings. -/
def same (a b : Descriptor) : Bool :=
  a.target == b.target && sameBindings a.bindings b.bindings && a.maindoc == b.maindoc &&
    a.location == b.location

def bindingLe (a b : String × String) : Bool :=
  a.1 < b.1 || (a.1 == b.1 && a.2 ≤ b.2)

def key (d : Descriptor) : String × List (String × String) × Option Bool × Option String :=
  (d.target, d.bindings.entries.mergeSort bindingLe, d.maindoc, d.location)

end Descriptor

end NamespacePlan
