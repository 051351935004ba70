/-! Elements of a document. Texts, comments and processing instructions are left out, and so is what
names are qualified with: an element is known by the base of its name, and only attributes without
qualifier can be seen. -/

namespace BusStub.Xml

structure Element where
  tag : String
  attributes : List (String × String) := []
  children : List Element := []
  deriving Repr, Inhabited

namespace Element

def attribute? (element : Element) (name : String) : Option String :=
  element.attributes.lookup name

/-- The value of an attribute, empty when it is missing. -/
def attributeD (element : Element) (name : String) : String :=
  (element.attribute? name).getD ""

end Element
end BusStub.Xml
