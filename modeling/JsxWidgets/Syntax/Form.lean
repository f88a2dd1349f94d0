import JsxWidgets.Decimal.Binary64
import JsxWidgets.Syntax.Operator

/-!
# Forms of syntax

A `Form` says which construct of the language a node is, together with the data that the node does
not share with its parts: names, literal values, operators. What its parts are is said beside each
form, in brackets. A part that may be missing is `absent` when it is, and a sequence of parts
between two others is one part of form `list`, so that the number of parts is fixed for most forms.

Parts stand in the order in which an analysis meets them. That is the order of the text with four
exceptions: the members of a class come before its parent, the test of a loop before its body even
when it is written behind it, the type parameters of a function behind its body, and type arguments
behind the arguments of a call.

## References and other names

Only `name` is a reference to a variable. `binder`, `bind`, `patName` and `word` hold names that are
introduced, assigned to, or looked up in an object, and tags and types hold their names themselves.
-/

namespace JsxWidgets.Syntax

/-- A piece of a template between its substitutions. -/
structure Quasi where
  /-- The text with its escapes applied, unless one of them is malformed. -/
  cooked : Option String
  /-- The text as it is written. -/
  raw : String
  deriving DecidableEq, Repr, Inhabited

/-- The text of a piece: with escapes applied if that is possible, else as written. -/
def Quasi.text (q : Quasi) : String := q.cooked.getD q.raw

/-- The name of a tag. -/
inductive TagName where
  /-- A single name such as `div`. -/
  | simple (name : String)
  /-- A path such as `Menu.Item`. -/
  | member (object : TagName) (property : String)
  /-- A name with a namespace such as `svg:path`. -/
  | namespaced (space name : String)
  deriving DecidableEq, Repr, Inhabited

/-- The text of the name of a tag. -/
def TagName.text : TagName → String
  | .simple n => n
  | .member o p => o.text ++ "." ++ p
  | .namespaced s n => s ++ ":" ++ n

/-- The name of an attribute. -/
inductive AttributeName where
  /-- A single name such as `onClick`. -/
  | simple (name : String)
  /-- A name with a namespace such as `xlink:href`. -/
  | namespaced (space name : String)
  deriving DecidableEq, Repr, Inhabited

/-- The text of the name of an attribute. -/
def AttributeName.text : AttributeName → String
  | .simple n => n
  | .namespaced s n => s ++ ":" ++ n

/-- A possibly dotted name in a type. -/
inductive EntityName where
  /-- A single name. -/
  | simple (name : String)
  /-- A name qualified by what stands in front of the dot. -/
  | qualified (left : EntityName) (right : String)
  deriving DecidableEq, Repr, Inhabited

/-- The first name of a dotted name. -/
def EntityName.root : EntityName → String
  | .simple n => n
  | .qualified l _ => l.root

/-- The text of a dotted name. -/
def EntityName.text : EntityName → String
  | .simple n => n
  | .qualified l r => l.text ++ "." ++ r

/-- One name brought in by an import. -/
inductive ImportBinding where
  /-- The default export under a local name. -/
  | main (name : String)
  /-- All exports as an object. -/
  | whole (name : String)
  /-- An export under a local name, and its own name if that differs. -/
  | named (name : String) (imported : Option String)
  deriving DecidableEq, Repr, Inhabited

/-- One entry of an export list. -/
inductive ExportBinding where
  /-- All exports of another module as an object. -/
  | whole (name : String)
  /-- A name, and the name that it is exported under if that differs. -/
  | named (name : String) (exported : Option String)
  deriving DecidableEq, Repr, Inhabited

/-- How variables are declared. -/
inductive VariableKind where
  | var | let | const
  deriving DecidableEq, Repr, Inhabited

/-- The constructs of the language. -/
inductive Form where
  /-- Any parts, in a row. -/
  | list
  /-- A missing part `[]`. -/
  | absent
  /-- A name that is introduced or is a label `[]`. -/
  | binder (text : String)

  -- Expressions
  /-- Something that is no expression or pattern, but was read as if it were `[]`. -/
  | invalid
  /-- A reference to a variable `[]`. -/
  | name (text : String)
  /-- The current object `[]`. -/
  | this
  /-- A quoted text `[]`. -/
  | string (value : String)
  /-- A number `[]`. -/
  | number (value : Binary64)
  /-- An integer of any size `[]`. -/
  | bigint (value : Nat)
  /-- A truth value `[]`. -/
  | bool (value : Bool)
  /-- The null value `[]`. -/
  | null
  /-- A regular expression `[]`. -/
  | regex (pattern flags : String)
  /-- A template `[substitution, …]`; there is one piece more than there are substitutions. -/
  | template (quasis : List Quasi)
  /-- A template handed to a function `[function, list type, list substitution]`. -/
  | tagged (quasis : List Quasi)
  /-- An array `[hole | item | spread, …]`. -/
  | array
  /-- An object `[property, …]`. -/
  | object
  /-- A function expression `[binder | absent, fn]`. -/
  | functionExpr
  /-- An arrow function `[list pattern, body | expression, list typeParam, type | absent]`. -/
  | arrow
  /-- A class expression `[binder | absent, cls]`. -/
  | classExpr
  /-- An expression in parentheses `[expression]`. -/
  | paren
  /-- An access to a member `[object, word | hidden | computed]`. -/
  | member
  /-- An access to a member of the parent class `[word | computed]`. -/
  | superMember
  /-- An access to a member in an optional chain `[object, word | hidden | computed]`. -/
  | optMember
  /-- A call `[expression | superCallee | importCallee, list item, list type]`. -/
  | call
  /-- A call in an optional chain `[expression, list item, list type]`. -/
  | optCall
  /-- The construction of an object `[class, list item, list type]`. -/
  | construct
  /-- An operator in front of its operand `[operand]`. -/
  | unary (op : UnaryOp)
  /-- An increment or decrement, in front of its operand or behind it `[operand]`. -/
  | update (op : UpdateOp) (inFront : Bool)
  /-- An operator between its operands `[left, right]`. -/
  | binary (op : BinaryOp)
  /-- A choice between two values `[test, yes, no]`. -/
  | conditional
  /-- An assignment `[binder | target | pattern, value]`. -/
  | assign (op : AssignOp)
  /-- Expressions one after the other `[expression, …]`. -/
  | sequence
  /-- Waiting for a promise `[operand]`. -/
  | await
  /-- Yielding a value `[operand | absent]`. -/
  | yield
  /-- Either `new.target` or `import.meta` `[]`. -/
  | metaProperty
  /-- A private name in front of `in` `[]`. -/
  | privateName (text : String)
  /-- Markup as an expression `[element | fragment]`. -/
  | markup
  /-- An expression with a type stated behind it `[expression, type]`. -/
  | asType
  /-- An expression fixed to its literal type `[expression]`. -/
  | asConst
  /-- An expression checked against a type `[expression, type]`. -/
  | satisfies
  /-- An expression stated to be neither null nor undefined `[expression]`. -/
  | nonNull
  /-- An expression with a type stated in front of it `[expression, type]`. -/
  | assertion
  /-- A generic function with type arguments `[expression, list type]`. -/
  | instantiate

  -- Parts of expressions
  /-- A place left out of an array `[]`. -/
  | hole
  /-- An item of an array or an argument of a call `[expression]`. -/
  | item
  /-- All values of an iterable, or all properties of an object `[expression]`. -/
  | spread
  /-- The constructor of the parent class as what is called `[]`. -/
  | superCallee
  /-- The import of a module at run time as what is called `[]`. -/
  | importCallee
  /-- A member or key by name `[]`. -/
  | word (text : String)
  /-- A member or key by private name `[]`. -/
  | hidden (text : String)
  /-- A member or key by the value of an expression `[expression]`. -/
  | computed
  /-- A key in quotes `[]`. -/
  | stringKey (value : String)
  /-- A key that is a number `[]`. -/
  | numberKey (value : Binary64)
  /-- A key that is an integer of any size `[]`. -/
  | bigintKey
  /-- A property with a key and a value `[key, value]`. -/
  | keyed
  /-- A property that is a variable under its own name `[]`. -/
  | shorthand (text : String)
  /-- A property with a default, which has a meaning in a pattern only `[default]`. -/
  | defaulted (text : String)
  /-- A computed read `[key, type | absent, body]`. -/
  | getter
  /-- A computed write; of several parameters two are kept `[key, list pattern, body]`. -/
  | setter
  /-- A method of an object or of a class `[key, fn]`. -/
  | method
  /-- A simple target of an assignment that is no plain variable `[expression]`. -/
  | target
  /-- A function `[list pattern, body | absent, list typeParam, type | absent]`. -/
  | fn
  /-- The statements of a function, a handler or an initializer `[statement, …]`. -/
  | body

  -- Patterns
  /-- A name with a type `[type | absent]`. -/
  | bind (text : String)
  /-- The items of an array `[list (pattern | absent), type | absent]`. -/
  | arrayPat
  /-- The properties of an object `[list (patKeyed | patName | rest), type | absent]`. -/
  | objectPat
  /-- All that is left `[pattern, type | absent]`. -/
  | rest
  /-- A pattern with a default `[pattern, default]`. -/
  | defaultPat
  /-- The value of a key `[key, pattern]`. -/
  | patKeyed
  /-- A property under its own name `[default | absent]`. -/
  | patName (text : String)

  -- Statements
  /-- Statements in braces `[statement, …]`. -/
  | block
  /-- Nothing `[]`. -/
  | empty
  /-- An expression as a statement `[expression]`. -/
  | exprStmt
  /-- A declaration as a statement `[declaration]`. -/
  | declStmt
  /-- The end of a function with its value `[expression | absent]`. -/
  | give
  /-- A statement with a label `[binder, statement]`. -/
  | labeled
  /-- A jump out of a statement or to its next round `[binder | absent]`. -/
  | jump
  /-- A choice `[test, statement, statement | absent]`. -/
  | branch
  /-- A choice between cases `[subject, case, …]`. -/
  | switch
  /-- Raising an exception `[expression]`. -/
  | raise
  /-- Handling exceptions `[body, handler | absent, body | absent]`. -/
  | attempt
  /-- A loop that tests first `[test, statement]`. -/
  | whileLoop
  /-- A loop that tests last `[test, statement]`. -/
  | doLoop
  /-- A loop with a counter `[start | absent, test | absent, step | absent, statement]`. -/
  | forLoop
  /-- A loop over keys or values `[varDecl | resources | pattern, subject, statement]`. -/
  | forEach
  /-- A statement in the scope of an object `[object, statement]`. -/
  | within
  /-- A case; the default case has no test `[test | absent, statement, …]`. -/
  | case
  /-- A handler of exceptions `[pattern | absent, body]`. -/
  | handler

  -- Declarations
  /-- A function `[binder, fn]`. -/
  | fnDecl
  /-- A class `[binder, cls]`. -/
  | classDecl
  /-- Variables `[declarator, …]`. -/
  | varDecl (kind : VariableKind)
  /-- Variables that own resources, up to the end of their block `[declarator, …]`. -/
  | resources
  /-- A variable `[pattern, initial value | absent]`. -/
  | declarator
  /-- An interface `[binder, list typeParam, list heritage, list type member]`. -/
  | interface
  /-- A name for a type `[binder, list typeParam, type]`. -/
  | typeName
  /-- An enumeration `[binder, enumMember, …]`. -/
  | enumDecl
  /-- A member of an enumeration `[binder | absent, value | absent]`. -/
  | enumMember
  /-- A namespace `[list binder, list module item]`. -/
  | space

  -- Classes
  /-- A class `[list member, parent | absent, list typeParam, list type, list heritage]`. -/
  | cls
  /-- The constructor of a class `[list pattern, body | absent]`. -/
  | maker
  /-- A field `[key, value | absent, type | absent]`. -/
  | field
  /-- A field with accessors made for it `[key, value | absent, type | absent]`. -/
  | accessor
  /-- Statements run when the class is made `[body]`. -/
  | initializer
  /-- A signature for all keys `[list pattern, type | absent]`. -/
  | index

  -- Items of a module that are not statements
  /-- An import, with the attributes of the module `[list property]`. -/
  | importFrom (typeOnly : Bool) (bindings : List ImportBinding) (source : String)
  /-- An exported declaration `[declaration]`. -/
  | exportDecl
  /-- A function exported as the default `[binder | absent, fn]`. -/
  | exportFn
  /-- A class exported as the default `[binder | absent, cls]`. -/
  | exportClass
  /-- An interface exported as the default `[interface]`. -/
  | exportInterface
  /-- A value exported as the default `[expression]`. -/
  | exportExpr
  /-- A list of exports, possibly from another module with its attributes `[list property]`. -/
  | exportList (bindings : List ExportBinding) (source : Option String)
  /-- All exports of another module, with the attributes of that one `[list property]`. -/
  | exportAll (source : String)
  /-- A name given to another module or to an entity `[binder, entity | absent]`. -/
  | importAlias
  /-- The value that a module exports as a whole `[expression]`. -/
  | exportAssign
  /-- The global name of a module `[]`. -/
  | exportSpace

  -- Markup
  /-- Markup with a tag `[opening, list child, closing | absent]`. -/
  | element
  /-- An opening tag `[list (attr | spread), list type]`. -/
  | opening (tag : TagName)
  /-- A closing tag `[]`. -/
  | closing (tag : TagName)
  /-- An attribute `[absent | quoted | container | element | fragment]`. -/
  | attr (name : AttributeName)
  /-- A quoted value of an attribute `[]`. -/
  | quoted (value : String)
  /-- An expression in braces `[expression | absent]`. -/
  | container
  /-- Text between tags `[]`. -/
  | text (value : String)
  /-- All values of an iterable as children `[expression]`. -/
  | spreadChild
  /-- Markup without a tag `[child, …]`. -/
  | fragment

  -- Types
  /-- A type that is a word of the language `[]`. -/
  | keyword (word : String)
  /-- A name in a type `[]`. -/
  | entity (name : EntityName)
  /-- A named type `[entity, list type]`. -/
  | reference
  /-- An array of a type `[type]`. -/
  | arrayType
  /-- One of several types `[type, …]`. -/
  | unionType
  /-- All of several types `[type, …]`. -/
  | interType
  /-- The type of one text `[]`. -/
  | stringType (value : String)
  /-- The type of one number, with its sign `[]`. -/
  | numberType (negative : Bool) (value : Binary64)
  /-- The type of one truth value `[]`. -/
  | boolType (value : Bool)
  /-- The type of another literal `[type, …]`. -/
  | literalType
  /-- The type of a function `[list pattern, list typeParam, type]`. -/
  | fnType
  /-- The type of a constructor `[list pattern, list typeParam, type]`. -/
  | makerType
  /-- A type in parentheses `[type]`. -/
  | parenType
  /-- A tuple `[tupleItem, …]`. -/
  | tupleType
  /-- An item of a tuple `[binder | absent, type]`. -/
  | tupleItem
  /-- The type of an object `[type member, …]`. -/
  | objectType
  /-- The type of a variable `[entity, list type]`. -/
  | queryType
  /-- A type variable bound in a condition `[typeParam]`. -/
  | inferType
  /-- The type of an object with computed keys `[typeParam, type, …]`. -/
  | mappedType
  /-- A statement about a parameter `[binder | absent, type | absent]`. -/
  | predicateType
  /-- A type made of types in a further way `[type | list type | list property, …]`. -/
  | compoundType
  /-- A type parameter `[binder, bound | absent, default | absent]`. -/
  | typeParam
  /-- A parent of an interface or an interface of a class `[expression, list type]`. -/
  | heritage
  /-- A property of an object type, its key an expression even when it is a plain name
  `[key, type | absent]`. -/
  | propertySig (isOptional : Bool)
  /-- A method of an object type `[key, list pattern, type | absent, list typeParam]`. -/
  | methodSig (isOptional : Bool)
  /-- A computed read of an object type `[key, type | absent]`. -/
  | getterSig
  /-- A computed write of an object type `[key, pattern]`. -/
  | setterSig
  /-- A call or construction of an object type `[list pattern, type | absent, list typeParam]`. -/
  | signature
  deriving DecidableEq, Repr, Inhabited

end JsxWidgets.Syntax
