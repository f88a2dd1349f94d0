import JsxWidgets.Syntax.Node

/-!
# Faults of a text that is read all the same

Many rules of the language are broken without making the text unreadable: an octal number, a
constant without a value, a `return` outside a function. Reading goes on, and the breach is a
`Fault`, which says what it is and where. `FaultKind.code` is the name under which each kind is
reported.

The kinds stand in the order of the matter they belong to: characters and tokens, names,
expressions, targets of assignments, functions, classes, types, statements, declarations of types,
imports and exports.
-/

namespace JsxWidgets.Syntax

/-- The ways in which a readable text breaks a rule of the language. -/
inductive FaultKind where
  -- Characters and tokens
  /-- A character that no token starts with. -/
  | strayCharacter (c : Char)
  /-- A character that an identifier cannot hold, in the form of an escape. -/
  | foreignCharacter
  /-- A word of the language that is written with an escape. -/
  | escapedWord
  /-- An escape that stands for no character. -/
  | malformedEscape
  /-- A number without digits. -/
  | missingDigits
  /-- A number that runs into a name. -/
  | numberBeforeName
  /-- An underscore in a number with no digit behind it. -/
  | strayUnderscore
  /-- A number or an escape written in octal with a leading zero. -/
  | legacyOctal
  /-- An octal number in a file with types. -/
  | untypedOctal
  /-- A decimal number with a leading zero. -/
  | legacyDecimal
  /-- A quoted text that is not closed on its line. -/
  | openString
  /-- A template that is not closed. -/
  | openTemplate
  /-- A regular expression that is not closed on its line. -/
  | openRegex
  /-- A comment that is not closed. -/
  | openComment
  /-- A comment in the style of markup. -/
  | legacyComment
  /-- A mark of two versions of a text that have not been merged. -/
  | conflictMarker
  /-- A flag of a regular expression that is given twice. -/
  | duplicateRegexFlag (flag : Char)
  /-- A flag that regular expressions do not have. -/
  | unknownRegexFlag
  /-- A bracket in the text of an element that should be written as an entity. -/
  | bareAngle
  /-- A brace in the text of an element that should be written as an entity. -/
  | bareBrace
  /-- The text ends where an expression has to stand. -/
  | endOfText
  /-- Something else stands where a token has to stand, or the text ends there. -/
  | missingToken (wanted found : String)

  -- Names
  /-- A name is missing. -/
  | missingName
  /-- A reserved name used as an identifier. -/
  | reservedName (name : String)
  /-- One of the names that cannot be bound. -/
  | unbindableName
  /-- A word of the language as a property that stands for a variable. -/
  | reservedShorthand
  /-- A word of the language as the name of an import. -/
  | reservedImport
  /-- The variable that waits in an asynchronous function. -/
  | awaitAsName
  /-- The arguments of a function in the value of a field. -/
  | argumentsInField

  -- Expressions
  /-- An expression is missing. -/
  | missingExpression
  /-- A plain variable as the operand of `delete`. -/
  | deletedVariable
  /-- Something else than a member as the operand of `delete`. -/
  | deletedValue
  /-- Waiting in a function that cannot wait. -/
  | strayAwait
  /-- Waiting in the parameters of a function. -/
  | awaitInParameters
  /-- A property with a default outside a pattern. -/
  | defaultOutsidePattern
  /-- A property of an object that is said to be optional. -/
  | optionalProperty
  /-- A comma in the brackets of a key. -/
  | commaInKey
  /-- A question for the constructor outside a function. -/
  | strayNewTarget
  /-- A mixture of `??` with another logical operator, without parentheses. -/
  | mixedNullish
  /-- A template handed to an optional chain. -/
  | taggedChain

  -- Targets of assignments
  /-- Something that cannot be assigned to. -/
  | invalidTarget
  /-- A plain variable that cannot be assigned to, in a file with types. -/
  | restrictedTarget
  /-- A part of a pattern, or the target of a combined assignment, that cannot be assigned to. -/
  | invalidCombinedTarget
  /-- Something that is no pattern. -/
  | invalidPattern
  /-- Something behind the part of a pattern that takes all that is left. -/
  | restNotLast
  /-- A comma behind the part of a pattern that takes all that is left. -/
  | commaBehindRest
  /-- A pattern where only a name may take all that is left. -/
  | restWithoutName

  -- Functions
  /-- A parameter behind the one for all that is left. -/
  | parameterBehindRest
  /-- A default of the parameter for all that is left. -/
  | defaultedRest
  /-- A mark of the parameter for all that is left as optional. -/
  | optionalRest
  /-- A parameter that is marked as optional and has a default. -/
  | optionalDefault
  /-- A type of a parameter behind its default. -/
  | typeBehindDefault
  /-- A default of a parameter in a declaration without a body. -/
  | defaultWithoutBody
  /-- A word that makes a parameter a field, outside a constructor. -/
  | parameterField
  /-- A body of a function that exists elsewhere. -/
  | ambientBody
  /-- A directive in a function whose parameters are not plain names. -/
  | misplacedDirective
  /-- A parameter of a getter. -/
  | getterParameter
  /-- A number of parameters of a setter other than one. -/
  | setterParameter
  /-- A parameter of a setter for all that is left. -/
  | setterRest

  -- Classes
  /-- A second constructor. -/
  | duplicateConstructor
  /-- A getter or setter that is called like the constructor. -/
  | constructorAccessor
  /-- A method that yields and is called like the constructor. -/
  | constructorGenerator
  /-- A private member that is called like the constructor. -/
  | privateConstructor
  /-- A word in front of a constructor that does not belong there. -/
  | constructorModifier (word : String)
  /-- Type parameters of a constructor. -/
  | constructorTypeParameter
  /-- An empty list of type parameters. -/
  | emptyTypeParameters
  /-- A type of the result of a constructor. -/
  | constructorResult
  /-- A method that is said to be read only. -/
  | readonlyMethod
  /-- A getter or setter that is said to be read only. -/
  | readonlyAccessor
  /-- A word in front of a private field that does not belong there. -/
  | privateModifier (word : String)
  /-- A word that says who may access a private member. -/
  | privateAccess
  /-- A word in front of a member that stands there twice. -/
  | repeatedModifier (word : String)
  /-- Two words in front of a member in the wrong order. -/
  | modifierOrder (first second : String)
  /-- Two words in front of a member that exclude each other. -/
  | modifierClash (first second : String)
  /-- A word in front of something that does not belong there. -/
  | misplacedModifier
  /-- A member of a kind that cannot be declared to exist elsewhere. -/
  | misplacedDeclare
  /-- The word `async` in front of something that does not wait. -/
  | misplacedAsync
  /-- The word `abstract` in front of something that cannot be abstract. -/
  | misplacedAbstract
  /-- An abstract member of a class that is not abstract. -/
  | strayAbstract
  /-- A body of an abstract method. -/
  | abstractBody
  /-- A value of an abstract field. -/
  | abstractValue
  /-- A member that overrides nothing, since the class has no parent. -/
  | strayOverride
  /-- A second list of parents. -/
  | repeatedExtends
  /-- A list of parents behind the interfaces. -/
  | lateExtends
  /-- A second parent of a class. -/
  | severalParents
  /-- A second list of interfaces. -/
  | repeatedImplements
  /-- A class or an interface with the name of a type of the language. -/
  | reservedClassName

  -- Types
  /-- A word in front of a type parameter that does not belong there. -/
  | typeParameterModifier (word : String)
  /-- A word that says in which direction a type parameter is used, in front of something else than
  a parameter of a class, an interface or a name for a type. -/
  | misplacedVariance (word : String)
  /-- The word `const` in front of a type parameter of an interface or of a name for a type. -/
  | misplacedConst
  /-- A private name of a member of an object type. -/
  | privateSignature
  /-- Several parameters of a signature for all keys. -/
  | severalIndexParameters
  /-- Something else than a name behind the point of a dotted name. -/
  | missingTypeName
  /-- Something else than a text as the module that a type is imported from. -/
  | unquotedModule

  -- Statements
  /-- Something else stands where a statement should end. -/
  | unfinishedStatement
  /-- A declaration of variables without a variable. -/
  | missingVariable
  /-- A constant without a value. -/
  | constantWithoutValue
  /-- A statement in the scope of an object. -/
  | withStatement
  /-- Such a statement in a file with types. -/
  | untypedWith
  /-- A return outside a function. -/
  | strayReturn
  /-- A break outside a loop or a choice between cases. -/
  | strayBreak
  /-- A continue outside a loop. -/
  | strayContinue
  /-- A break to a label that is not there. -/
  | unknownBreakLabel
  /-- A continue to a label that is not there. -/
  | unknownContinueLabel
  /-- A label inside a statement with the same label. -/
  | duplicateLabel (name : String)
  /-- A function behind a label. -/
  | labeledFunction
  /-- A function that yields behind a label. -/
  | labeledGenerator
  /-- A declaration where only a statement may stand. -/
  | misplacedDeclaration
  /-- The variable of a loop over values that is called like the word of the language. -/
  | asyncLoopVariable
  /-- A loop over values without a variable. -/
  | missingLoopVariable
  /-- More than one variable of a loop over keys or values. -/
  | extraLoopVariable
  /-- A value of the variable of a loop over keys or values. -/
  | loopVariableValue
  /-- A type of the variable of a loop over values. -/
  | loopVariableType
  /-- A pattern as the variable of a loop over keys. -/
  | loopKeyPattern
  /-- A variable that owns a resource, in a file that knows no such variables. -/
  | unknownResource
  /-- A variable that owns a resource without one. -/
  | resourceWithoutValue
  /-- A pattern where a variable has to own a resource. -/
  | resourcePattern
  /-- A variable that owns a resource in a loop over keys. -/
  | resourceKey

  -- Declarations of types
  /-- An interface with the name of a type of the language. -/
  | reservedInterfaceName
  /-- A word in front of an interface that does not belong there. -/
  | interfaceModifier
  /-- A computed name of a member of an enumeration. -/
  | computedEnumMember
  /-- A number as the name of a member of an enumeration. -/
  | numericEnumMember

  -- Imports and exports
  /-- A name that is restricted to its type in a list of imports of types. -/
  | repeatedImportMark
  /-- A name that is restricted to its type in a list of exports of types. -/
  | repeatedExportMark
  /-- A quoted name that is exported as if it were a variable. -/
  | quotedExport
  /-- A word of the language that is exported as if it were a variable. -/
  | reservedExport (name : String)
  deriving DecidableEq, Repr, Inhabited

/-- A text in quotes, as it stands in the name of a fault. -/
def quotedInCode (text : String) : String :=
  let piece (c : Char) : String :=
    match c with
    | '\x22' => "\\\""
    | '\\' => "\\\\"
    | '\n' => "\\n"
    | '\r' => "\\r"
    | '\t' => "\\t"
    | _ => String.singleton c
  "\"" ++ String.join (text.toList.map piece) ++ "\""

/-- The name under which a kind of fault is reported. -/
def FaultKind.code : FaultKind → String
  | .strayCharacter c => "UnexpectedChar \x7b c: '" ++ String.singleton c ++ "' \x7d"
  | .foreignCharacter => "InvalidIdentChar"
  | .escapedWord => "EscapeInReservedWord"
  | .malformedEscape => "InvalidUnicodeEscape"
  | .missingDigits => "ExpectedDigit"
  | .numberBeforeName => "IdentAfterNum"
  | .strayUnderscore => "NumericSeparatorIsAllowedOnlyBetweenTwoDigits"
  | .legacyOctal => "LegacyOctal"
  | .untypedOctal => "TS1085"
  | .legacyDecimal => "LegacyDecimal"
  | .openString => "UnterminatedStrLit"
  | .openTemplate => "UnterminatedTpl"
  | .openRegex => "UnterminatedRegExp"
  | .openComment => "UnterminatedBlockComment"
  | .legacyComment => "LegacyCommentInModule"
  | .conflictMarker => "TS1185"
  | .duplicateRegexFlag c => "DuplicatedRegExpFlags('" ++ String.singleton c ++ "')"
  | .unknownRegexFlag => "UnknownRegExpFlags"
  | .bareAngle =>
    "UnexpectedTokenWithSuggestions \x7b candidate_list: [\"`\x7b'>'\x7d`\", \"`&gt;`\"] \x7d"
  | .bareBrace =>
    "UnexpectedTokenWithSuggestions \x7b candidate_list: [\"`\x7b'\x7d'\x7d`\", "
      ++ "\"`&rbrace;`\"] \x7d"
  | .endOfText => "Eof"
  | .missingToken wanted found =>
    "Expected(" ++ quotedInCode wanted ++ ", " ++ quotedInCode found ++ ")"
  | .missingName => "ExpectedIdent"
  | .reservedName n => "InvalidIdentInStrict(\"" ++ n ++ "\")"
  | .unbindableName => "EvalAndArgumentsInStrict"
  | .reservedShorthand => "ReservedWordInObjShorthandOrPat"
  | .reservedImport => "ReservedWordInImport"
  | .awaitAsName => "InvalidIdentInAsync"
  | .argumentsInField => "ArgumentsInClassField"
  | .missingExpression => "TS1109"
  | .deletedVariable => "TS1102"
  | .deletedValue => "TS2703"
  | .strayAwait => "AwaitInFunction"
  | .awaitInParameters => "AwaitParamInAsync"
  | .defaultOutsidePattern => "AssignProperty"
  | .optionalProperty => "TS1162"
  | .commaInKey => "TS1171"
  | .strayNewTarget => "InvalidNewTarget"
  | .mixedNullish => "NullishCoalescingWithLogicalOp"
  | .taggedChain => "TaggedTplInOptChain"
  | .invalidTarget => "TS2406"
  | .restrictedTarget => "TS1100"
  | .invalidCombinedTarget => "NotSimpleAssign"
  | .invalidPattern => "InvalidPat"
  | .restNotLast => "NonLastRestParam"
  | .commaBehindRest => "CommaAfterRestElement"
  | .restWithoutName => "DotsWithoutIdentifier"
  | .parameterBehindRest => "TS1014"
  | .defaultedRest => "TS1048"
  | .optionalRest => "TS1047"
  | .optionalDefault => "TS1015"
  | .typeBehindDefault => "TSTypeAnnotationAfterAssign"
  | .defaultWithoutBody => "TS2371"
  | .parameterField => "TS2369"
  | .ambientBody => "TS1183"
  | .misplacedDirective => "IllegalLanguageModeDirective"
  | .getterParameter => "GetterParam"
  | .setterParameter => "SetterParam"
  | .setterRest => "RestPatInSetter"
  | .duplicateConstructor => "DuplicateConstructor"
  | .constructorAccessor => "ConstructorAccessor"
  | .constructorGenerator => "GeneratorConstructor"
  | .privateConstructor => "PrivateConstructor"
  | .constructorModifier w => "TS1089(\"" ++ w ++ "\")"
  | .constructorTypeParameter => "TS1092"
  | .emptyTypeParameters => "TS1098"
  | .constructorResult => "TS1093"
  | .readonlyMethod => "ReadOnlyMethod"
  | .readonlyAccessor => "GetterSetterCannotBeReadonly"
  | .privateModifier w => "PrivateNameModifier(\"" ++ w ++ "\")"
  | .privateAccess => "TS18010"
  | .repeatedModifier w => "TS1030(\"" ++ w ++ "\")"
  | .modifierOrder a b => "TS1029(\"" ++ a ++ "\", \"" ++ b ++ "\")"
  | .modifierClash a b => "TS1243(\"" ++ a ++ "\", \"" ++ b ++ "\")"
  | .misplacedModifier => "TS1184"
  | .misplacedDeclare => "TS1031"
  | .misplacedAsync => "TS1042"
  | .misplacedAbstract => "TS1242"
  | .strayAbstract => "TS1244"
  | .abstractBody => "TS1245"
  | .abstractValue => "TS1267"
  | .strayOverride => "TS4112"
  | .repeatedExtends => "TS1172"
  | .lateExtends => "TS1173"
  | .severalParents => "TS1174"
  | .repeatedImplements => "TS1175"
  | .reservedClassName => "TS2414"
  | .typeParameterModifier w => "TS1273(\"" ++ w ++ "\")"
  | .misplacedVariance w => "TS1274(\"" ++ w ++ "\")"
  | .misplacedConst => "TS1277(\"const\")"
  | .privateSignature => "PrivateNameInInterface"
  | .severalIndexParameters => "TS1096"
  | .missingTypeName => "TS1003"
  | .unquotedModule => "TS1141"
  | .unfinishedStatement => "TS1005"
  | .missingVariable => "TS1009"
  | .constantWithoutValue => "ConstDeclarationsRequireInitialization"
  | .withStatement => "WithInStrict"
  | .untypedWith => "TS2410"
  | .strayReturn => "ReturnNotAllowed"
  | .strayBreak => "TS1105"
  | .strayContinue => "TS1115"
  | .unknownBreakLabel => "TS1116"
  | .unknownContinueLabel => "TS1107"
  | .duplicateLabel n => "DuplicateLabel(\"" ++ n ++ "\")"
  | .labeledFunction => "LabelledFunctionInStrict"
  | .labeledGenerator => "LabelledGeneratorOrAsync"
  | .misplacedDeclaration => "DeclNotAllowed"
  | .asyncLoopVariable => "TS1106"
  | .missingLoopVariable => "TS1123"
  | .extraLoopVariable => "TooManyVarInForInHead"
  | .loopVariableValue => "VarInitializerInForInHead"
  | .loopVariableType => "TS2483"
  | .loopKeyPattern => "TS2491"
  | .unknownResource => "UsingDeclNotEnabled"
  | .resourceWithoutValue => "InitRequiredForUsingDecl"
  | .resourcePattern => "InvalidNameInUsingDecl"
  | .resourceKey => "UsingDeclNotAllowedForForInLoop"
  | .reservedInterfaceName => "TS2427"
  | .interfaceModifier => "TS2427"
  | .computedEnumMember => "TS1164"
  | .numericEnumMember => "TS2452"
  | .repeatedImportMark => "TS2206"
  | .repeatedExportMark => "TS2207"
  | .quotedExport => "ExportBindingIsString"
  | .reservedExport n => "ExportExpectFrom(\"" ++ n ++ "\")"

/-- A broken rule and where it is broken. -/
structure Fault where
  /-- The rule. -/
  kind : FaultKind
  /-- The place. -/
  place : Place
  deriving DecidableEq, Repr, Inhabited

end JsxWidgets.Syntax
