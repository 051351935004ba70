import BusStub.Model
import BusStub.Text.Split

/-! Derived interfaces. Merging sorts the parents by their full names, so that the result does not
depend on the order in which they were given; look-ups say which parent declares a member. -/

namespace BusStub.Interface

/-- The last dotted segment of the name. -/
def shortName (interface : Interface) : String :=
  Text.afterLast '.' interface.name

def isDerived (interface : Interface) : Bool :=
  !interface.parents.isEmpty

/-- The interfaces that exist on the bus: the parents of a derived interface, or the interface itself. -/
def concrete (interface : Interface) : List Interface :=
  if interface.isDerived then interface.parents else [interface]

def sortByName (parts : List Interface) : List Interface :=
  parts.mergeSort fun a b => decide (a.name ≤ b.name)

/-- One interface with all members of the parts. A single part is taken as it is. -/
def merged : List Interface → Interface
  | [part] => part
  | parts =>
    let parents := sortByName parts
    { name := String.intercalate "__" (parents.map shortName)
      methods := parents.flatMap methods
      signals := parents.flatMap signals
      properties := parents.flatMap properties
      parents }

def method? (interface : Interface) (name : String) : Option Method :=
  interface.methods.find? (·.name = name)

def signal? (interface : Interface) (name : String) : Option Signal :=
  interface.signals.find? (·.name = name)

def property? (interface : Interface) (name : String) : Option Property :=
  interface.properties.find? (·.name = name)

def byMethod? (interface : Interface) (name : String) : Option String :=
  (interface.concrete.find? fun part => (part.method? name).isSome).map Interface.name

def bySignal? (interface : Interface) (name : String) : Option String :=
  (interface.concrete.find? fun part => (part.signal? name).isSome).map Interface.name

def byProperty? (interface : Interface) (name : String) : Option String :=
  (interface.concrete.find? fun part => (part.property? name).isSome).map Interface.name

end BusStub.Interface
