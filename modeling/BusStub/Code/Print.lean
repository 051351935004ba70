import BusStub.Code.Build
import BusStub.Layout

/-! The text of generated code. Braces are written by this module alone, apart from the signatures
that generated code quotes. -/

namespace BusStub.Code

def commas (texts : List String) : String :=
  String.intercalate ", " texts

def TypeName.text : TypeName → String
  | .plain text => text
  | .scalar kind => kind.typeText
  | .composite path => String.intercalate "::" path

namespace CType

/-- Qualifier and name, before any star. -/
def stem (type : CType) : String :=
  (if type.constant then "const " else "") ++ type.name.text

def starText (type : CType) : String :=
  String.ofList (List.replicate type.stars '*')

def text (type : CType) : String :=
  if type.stars = 0 then type.stem else type.stem ++ " " ++ type.starText

def declare (type : CType) (name : String) : String :=
  type.stem ++ " " ++ type.starText ++ name

end CType

def Variable.text (v : Variable) : String :=
  v.type.declare v.name

namespace Param

def text (param : Param) : String :=
  let spelled := match param.passing with
    | .value => param.type.declare param.name
    | .result =>
      if param.type.stars = 0 then param.type.stem ++ "& " ++ param.name
      else param.type.stem ++ " " ++ param.type.starText ++ "&" ++ param.name
    | .shared => param.type.stem ++ " " ++ param.type.starText ++ "&" ++ param.name
  match param.default with
  | none => spelled
  | some value => spelled ++ " = " ++ value

end Param

def Operator.symbol : Operator → String
  | .equal => "==" | .unequal => "!=" | .conjunction => "&&" | .union => "|"

mutual
def Expr.text : Expr → String
  | .name text => text
  | .number value => toString value
  | .quoted text => "\"" ++ text ++ "\""
  | .place p => p.text
  | .count p => countName p.text
  | .address target => "&" ++ target.text
  | .content pointer => "*" ++ pointer.text
  | .negation condition => "!" ++ condition.text
  | .binary operator left right => left.text ++ " " ++ operator.symbol ++ " " ++ right.text
  | .member object field => object.text ++ "." ++ field
  | .arrow pointer field => pointer.text ++ "->" ++ field
  | .call callee args => callee.text ++ "(" ++ commas (Expr.texts args) ++ ")"
  | .newArray type size => "new " ++ type.text ++ "[" ++ size.text ++ "]"
  | .newObject type args => "new " ++ type ++ "(" ++ commas (Expr.texts args) ++ ")"
  | .cast type value => "static_cast<" ++ type.text ++ ">(" ++ value.text ++ ")"
termination_by structural expr => expr

def Expr.texts : List Expr → List String
  | [] => []
  | expr :: rest => expr.text :: Expr.texts rest
termination_by structural exprs => exprs
end

/-- A loop over the elements of the counted value that is written `place`. -/
def loopFragment (place : String) (depth : Nat) (body : List Fragment) : Fragment :=
  let i := counter depth
  .block ("for (size_t " ++ i ++ " = 0; " ++ i ++ " < " ++ countName place ++ "; " ++ i ++ "++) \x7b") body "\x7d"

/-- A function: its signature on one line, then the body in braces. -/
def functionFragments (signature : String) (body : List Fragment) : List Fragment :=
  [.line signature, .block "\x7b" body "\x7d"]

mutual
def Stmt.fragments : Stmt → List Fragment
  | .declare v => [.line (v.text ++ ";")]
  | .define v value => [.line (v.text ++ " = " ++ value.text ++ ";")]
  | .array v length => [.line (v.text ++ "[" ++ toString length ++ "];")]
  | .construct v args => [.line (v.text ++ "(" ++ commas (Expr.texts args) ++ ");")]
  | .assign target value => [.line (target.text ++ " = " ++ value.text ++ ";")]
  | .perform action => [.line (action.text ++ ";")]
  | .delete pointer => [.line ("delete " ++ pointer.text ++ ";")]
  | .deleteArray pointer => [.line ("delete [] " ++ pointer.text ++ ";")]
  | .ret value => [.line ("return " ++ value.text ++ ";")]
  | .loop depth p body => [loopFragment p.text depth (Stmt.fragmentsAll body)]
  | .branch condition body =>
    [.block ("if (" ++ condition.text ++ ") \x7b") (Stmt.fragmentsAll body) "\x7d"]
  | .choose condition body otherwise =>
    [.block ("if (" ++ condition.text ++ ") \x7b") (Stmt.fragmentsAll body) "",
     .block "\x7d else \x7b" (Stmt.fragmentsAll otherwise) "\x7d"]
  | .comment text => [.comment text]
  | .blank => [.blank]
termination_by structural stmt => stmt

def Stmt.fragmentsAll : List Stmt → List Fragment
  | [] => []
  | stmt :: rest => stmt.fragments ++ Stmt.fragmentsAll rest
termination_by structural stmts => stmts
end

namespace Prototype

/-- The prototype's text with its name qualified by the class it belongs to. -/
def textIn (prototype : Prototype) (owner : Option String) : String :=
  let result := match prototype.result with
    | some type => type ++ " "
    | none => ""
  let scope := match owner with
    | some name => name ++ "::"
    | none => ""
  result ++ scope ++ prototype.name ++ "(" ++ commas (prototype.params.map Param.text) ++ ")"

def text (prototype : Prototype) : String :=
  prototype.textIn none

end Prototype

def Definition.fragments (definition : Definition) : List Fragment :=
  let signature := definition.prototype.textIn definition.owner
  let body := Stmt.fragmentsAll definition.body
  if definition.initializers.isEmpty then functionFragments signature body
  else
    let initializers := definition.initializers.map fun (member, value) => member ++ "(" ++ value ++ ")"
    [.line signature, .line (Layout.indent 1 ++ ": " ++ commas initializers), .block "\x7b" body "\x7d"]

mutual
def Field.fragment : Field → Fragment
  | .plain v => .line (v.text ++ ";")
  | .definition name fields object =>
    let closing := match object with
      | some name => "\x7d " ++ name ++ ";"
      | none => "\x7d;"
    .block ("struct " ++ name ++ "\x7b") (Field.fragmentsAll fields) closing
termination_by structural field => field

def Field.fragmentsAll : List Field → List Fragment
  | [] => []
  | field :: rest => field.fragment :: Field.fragmentsAll rest
termination_by structural fields => fields
end

def Member.fragment : Member → Fragment
  | .function prototype => .line (prototype.text ++ ";")
  | .data v => .line (v.text ++ ";")
  | .comment text => .comment text
  | .blank => .blank

def Klass.fragments (klass : Klass) : List Fragment :=
  [.line ("class " ++ klass.name ++ " : public " ++ klass.base),
   .block "\x7b"
     [.block "public:" (klass.visible.map Member.fragment) "",
      .blank,
      .block "private:" (klass.hidden.map Member.fragment) ""]
     "\x7d;"]

def Item.fragments : Item → List Fragment
  | .line text => [.line text]
  | .comment text => [.comment text]
  | .blank => [.blank]
  | .record name fields => [Field.fragment (.definition name fields none)]
  | .klass k => k.fragments
  | .function definition => definition.fragments

def print (items : List Item) : String :=
  Layout.render 0 (items.flatMap Item.fragments)

end BusStub.Code
