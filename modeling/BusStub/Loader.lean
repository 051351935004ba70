import BusStub.Loader.Interface
import BusStub.Model.Equality
import BusStub.Model.Merge
import BusStub.ObjectPath
import BusStub.Xml.Document

/-! Loading descriptions one after another. The objects found so far and the table of interfaces are
kept, so that a later document can use an interface again but not change it. A document that fails
keeps what it had added before. -/

namespace BusStub

structure LoadOptions where
  /-- Unnamed arguments get names of their own. -/
  lax : Bool := false
  /-- The path above the outermost object, instead of what its name says. -/
  objectPath : Option String := none
  /-- The name of the outermost object, instead of the one in the document. -/
  objectName : Option String := none
  deriving DecidableEq, Repr, Inhabited

structure Loader where
  objects : List ObjectNode := []
  /-- Every interface that has been described, the last one first. -/
  interfaces : List Interface := []
  warnings : List LoadWarning := []
  deriving Repr, Inhabited

/-- Loading changes the loader also when it fails. -/
abbrev Loading := ExceptT LoadError (StateM Loader)

namespace Loader

/-- Interfaces that every object has anyway; their descriptions are passed over. -/
def standardInterfaces : List String :=
  ["org.freedesktop.DBus.Introspectable", "org.freedesktop.DBus.Properties"]

def isStandard (name : String) : Bool :=
  standardInterfaces.contains name

/-- Runs a reading and keeps its remarks. -/
def keep (reading : Reading α) : Loading α := fun loader =>
  let (result, warnings) := reading.run loader.warnings
  (result, { loader with warnings })

/-- Enters an interface into the table, or finds that it is there already. -/
def enter (interface : Interface) : Loading Unit := do
  let loader ← get
  match loader.interfaces.find? (·.name = interface.name) with
  | some known => if known ≠ interface then throw (.conflict interface.name)
  | none => set { loader with interfaces := interface :: loader.interfaces }

/-- The interface that an element of an object describes, if it is to be generated. -/
def interface? (options : LoadOptions) (element : Xml.Element) : Loading (Option Interface) :=
  if isStandard (element.attributeD "name") then return none
  else do
    let interface ← keep (Interface.ofElement options.lax element)
    enter interface
    return some interface

def nestedName (element : Xml.Element) : Except LoadError String :=
  let name := element.attributeD "name"
  if name.isEmpty || name.toList.contains '/' then .error (.nestedName name) else .ok name

/-- Adds an object with the interfaces found for it; without any, there is no object. -/
def addObject (name : Option String) (path : String) (interfaces : List Interface) : Loading Unit := do
  unless interfaces.isEmpty do
    match name with
    | none => throw .missingObjectName
    | some name =>
      let object : ObjectNode := { name, path, interface := .merged interfaces }
      let loader ← get
      if loader.objects.any (·.name = name) then throw (.duplicateObject name)
      set { loader with objects := loader.objects ++ [object] }

mutual
/-- Loads the object of an element after all objects inside it. -/
def node (options : LoadOptions) (name : Option String) (path : String) : Xml.Element → Loading Unit
  | ⟨_, _, children⟩ => do
    let interfaces ← nodeChildren options path children
    addObject name path interfaces
termination_by structural element => element

/-- Loads the objects among the children of an object, and returns its interfaces. -/
def nodeChildren (options : LoadOptions) (path : String) : List Xml.Element → Loading (List Interface)
  | [] => return []
  | child :: rest => match child.tag with
    | "interface" => do
      let found ← interface? options child
      let others ← nodeChildren options path rest
      return found.toList ++ others
    | "node" => do
      let name ← nestedName child
      node options (some name) (ObjectPath.join path name) child
      nodeChildren options path rest
    | _ => nodeChildren options path rest
termination_by structural elements => elements
end

/-- The name of the outermost object. -/
def rootName (options : LoadOptions) (written : String) : Loading (Option String) :=
  let base := ObjectPath.base written
  match options.objectName with
  | some name => do
    if !base.isEmpty && base != name then
      modify fun loader => { loader with warnings := loader.warnings ++ [.renamed name base] }
    return some name
  | none => return if base.isEmpty then none else some base

/-- The path of the outermost object; without a name it is the root of all paths. -/
def rootPath (options : LoadOptions) (written : String) : Option String → String
  | some name => ObjectPath.join (options.objectPath.getD (ObjectPath.parent written)) name
  | none => "/"

def root (options : LoadOptions) (element : Xml.Element) : Loading Unit := do
  if element.tag ≠ "node" then throw (.unexpectedRoot element.tag)
  let written := element.attributeD "name"
  let name ← rootName options written
  node options name (rootPath options written name) element

/-- Loads a text that is read in any way; `none` stands for a text that is no document. -/
def documentBy (read : String → Option Xml.Element) (options : LoadOptions) (text : String) : Loading Unit :=
  match read text with
  | some element => root options element
  | none => throw .malformed

def document : LoadOptions → String → Loading Unit :=
  documentBy Xml.Element.ofDocument?

end Loader
end BusStub
