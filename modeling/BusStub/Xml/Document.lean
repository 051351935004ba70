import BusStub.Xml.Element
import BusStub.Xml.Token

/-! Reading a whole document. Tokens are taken one after another with the elements that are open;
a document is good when there is one outermost element and nothing but remarks and white space
around it. Qualifiers must be declared; document types are refused. -/

namespace BusStub.Xml

namespace Namespace

/-- The namespace that the qualifier `xml` always stands for. -/
def reserved : String := "http://www.w3.org/XML/1998/namespace"

/-- The namespace of declarations, which has no other name. -/
def declarations : String := "http://www.w3.org/2000/xmlns/"

end Namespace

/-- Qualifiers and the namespaces they stand for, innermost first. -/
abbrev Scope := List (String × String)

/-- What an attribute is good for. -/
inductive Attribute where
  | plain (name : Name) (value : String)
  | qualifier (name namespaceName : String)
  /-- A declaration that adds nothing. -/
  | idle
  deriving Repr, Inhabited

/-- Sorts an attribute; refuses declarations that meddle with the reserved namespaces. -/
def Attribute.ofPair? : Name × String → Option Attribute
  | (name, value) =>
    if name.qualifier = "xmlns" then
      if value = Namespace.declarations || (name.base = "xml") != (value = Namespace.reserved) then none
      else some (if name.base = "xml" then .idle else .qualifier name.base value)
    else if name.base = "xmlns" then
      if value = Namespace.declarations || value = Namespace.reserved then none else some .idle
    else some (.plain name value)

/-- The qualifiers that attributes declare, each once. -/
def declared? : List Attribute → Option Scope
  | [] => some []
  | .qualifier name value :: rest => (declared? rest).bind fun scope =>
    if (scope.lookup name).isSome then none else some ((name, value) :: scope)
  | _ :: rest => declared? rest

/-- The namespace of an attribute's name; a name without qualifier has none. -/
def namespaceOf? (scope : Scope) (qualifier : String) : Option (Option String) :=
  if qualifier.isEmpty then some none
  else if qualifier = "xml" then some (some Namespace.reserved)
  else (scope.lookup qualifier).map some

/-- The namespaces, bases and values of attributes. -/
def resolved? (scope : Scope) : List Attribute → Option (List ((Option String × String) × String))
  | [] => some []
  | .plain name value :: rest => (namespaceOf? scope name.qualifier).bind fun space =>
    (resolved? scope rest).bind fun others =>
      if (others.lookup (space, name.base)).isSome then none else some (((space, name.base), value) :: others)
  | _ :: rest => resolved? scope rest

/-- An element that has been opened and not closed, with its children last first. -/
structure Frame where
  name : Name
  scope : Scope
  attributes : List (String × String)
  children : List Element := []

def Frame.element (frame : Frame) : Element :=
  ⟨frame.name.base, frame.attributes, frame.children.reverse⟩

/-- Opens an element inside a scope. -/
def Frame.open? (scope : Scope) (name : Name) (pairs : List (Name × String)) : Option Frame := do
  let attributes ← pairs.mapM Attribute.ofPair?
  let scope := (← declared? attributes) ++ scope
  let resolved ← resolved? scope attributes
  let visible := resolved.filterMap fun ((space, base), value) =>
    if space.isNone then some (base, value) else none
  if name.qualifier.isEmpty || (name.qualifier != "xmlns" && (scope.lookup name.qualifier).isSome) then
    some { name, scope, attributes := visible }
  else none

/-- The open elements, innermost first, and the outermost element once it is closed. -/
structure State where
  frames : List Frame := []
  root : Option Element := none

namespace State

def scope (state : State) : Scope :=
  (state.frames.head?.map Frame.scope).getD []

def place (element : Element) (frames : List Frame) : State :=
  match frames with
  | [] => { root := some element }
  | parent :: rest => { frames := { parent with children := element :: parent.children } :: rest }

def step (state : State) (token : Token) : Option State :=
  match token, state.frames with
  | .remark, _ => some state
  | .text blank, frames => if blank || !frames.isEmpty then some state else none
  | .opening name pairs closed, frames =>
    if state.root.isSome then none
    else (Frame.open? state.scope name pairs).map fun frame =>
      if closed then place frame.element frames else { frames := frame :: frames }
  | .closing name, frame :: rest => if frame.name = name then some (place frame.element rest) else none
  | .closing _, [] => none

def finish (state : State) : Option Element :=
  if state.frames.isEmpty then state.root else none

end State

/-- A word of the declaration that begins with the given characters, if it is there. -/
def pseudo? (start cs : List Char) : Option (Bool × List Char) :=
  if start.isPrefixOf cs then (assignment? cs).map fun (_, rest) => (true, rest) else some (false, cs)

/-- White space, which may only be missing at the end of the declaration. -/
def gap? (cs : List Char) : Option (List Char) :=
  if startsSpace cs || ['?', '>'].isPrefixOf cs then some (skipSpace cs) else none

/-- What follows `<?xml `: a version, then perhaps an encoding and whether the document stands alone. -/
def declaration? (cs : List Char) : Option (List Char) := do
  let (versioned, cs) ← pseudo? "version".toList (skipSpace cs)
  if !versioned then none
  let (encoded, cs) ← pseudo? "encoding".toList (← gap? cs)
  let (_, cs) ← pseudo? "standalone".toList (← if encoded then gap? cs else some cs)
  match skipSpace cs with
  | '?' :: '>' :: rest => some rest
  | _ => none

/-- The document without byte order mark and declaration. -/
def body? (cs : List Char) : Option (List Char) :=
  let cs := match cs with
    | '\uFEFF' :: rest => rest
    | _ => cs
  match cs with
  | '<' :: '?' :: 'x' :: 'm' :: 'l' :: ' ' :: rest => declaration? rest
  | _ => some cs

/-- The outermost element of a document, if it is well formed. -/
def Element.ofDocument? (document : String) : Option Element := do
  let tokens ← tokens? (← body? document.toList)
  (← tokens.foldlM State.step {}).finish

end BusStub.Xml
