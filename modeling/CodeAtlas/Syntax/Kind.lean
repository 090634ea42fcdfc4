/-!
# Kinds of syntax nodes

A node of a concrete syntax tree is either a *token*, whose kind is its own spelling, or the result
of a *rule* of the grammar.  Nodes of rules are the named nodes of the tree.  A `Field` labels the
part that a child plays in its parent.
-/

namespace CodeAtlas.Syntax

/-- The rules of the JavaScript and TypeScript grammars that leave a node in the tree. -/
inductive Rule where
  | error | program | hashBangLine | comment | htmlComment
  -- modules
  | exportStatement | namespaceExport | exportClause | exportSpecifier
  | importStatement | importClause | namespaceImport | namedImports | importSpecifier
  | importAttribute | importAlias | importRequireClause | dynamicImport
  -- statements
  | expressionStatement | variableDeclaration | lexicalDeclaration | usingDeclaration
  | variableDeclarator | statementBlock | ifStatement | elseClause | switchStatement | switchBody
  | switchCase | switchDefault | forStatement | forInStatement | whileStatement | doStatement
  | tryStatement | catchClause | finallyClause | withStatement | breakStatement
  | continueStatement | debuggerStatement | returnStatement | throwStatement | emptyStatement
  | labeledStatement | statementIdentifier
  -- expressions
  | parenthesizedExpression | sequenceExpression | yieldExpression | awaitExpression
  | unaryExpression | updateExpression | binaryExpression | ternaryExpression
  | assignmentExpression | augmentedAssignmentExpression | callExpression | arguments
  | newExpression | memberExpression | subscriptExpression | optionalChain | metaProperty
  | spreadElement | this | super | number | string | stringFragment | escapeSequence
  | templateString | templateSubstitution | regex | regexPattern | regexFlags
  | trueLiteral | falseLiteral | null | undefined
  | identifier | propertyIdentifier | privatePropertyIdentifier | shorthandPropertyIdentifier
  | nestedIdentifier | computedPropertyName
  | object | pair | array
  -- patterns
  | objectPattern | pairPattern | objectAssignmentPattern | shorthandPropertyIdentifierPattern
  | arrayPattern | assignmentPattern | restPattern
  -- callables and classes
  | functionExpression | functionDeclaration | generatorFunction | generatorFunctionDeclaration
  | functionSignature | arrowFunction | formalParameters | requiredParameter | optionalParameter
  | classExpression | classDeclaration | abstractClassDeclaration | classHeritage | extendsClause
  | implementsClause | classBody | classStaticBlock | methodDefinition | fieldDefinition
  | publicFieldDefinition | methodSignature | abstractMethodSignature | indexSignature
  | decorator | accessibilityModifier | overrideModifier
  -- markup
  | jsxElement | jsxOpeningElement | jsxClosingElement | jsxSelfClosingElement | jsxText
  | jsxExpression | jsxAttribute | jsxNamespaceName | htmlCharacterReference
  -- types
  | typeIdentifier | nestedTypeIdentifier | genericType | predefinedType | thisType
  | typeAscription | typePredicate | predicateAscription | asserts | assertsAscription
  | typeParameters | typeParameter | constraint | defaultType | typeArguments
  | objectType | interfaceBody | propertySignature | callSignature | constructSignature
  | mappedTypeClause | arrayType | tupleType | optionalType | restType | readonlyType
  | unionType | intersectionType | conditionalType | inferType | functionType | constructorType
  | typeQuery | indexTypeQuery | lookupType | literalType | parenthesizedType
  | templateLiteralType | templateType | existentialType | flowMaybeType | importType
  -- typed expressions and declarations
  | nonNullExpression | asExpression | satisfiesExpression | typeAssertion
  | instantiationExpression
  | interfaceDeclaration | extendsTypeClause | enumDeclaration | enumBody | enumAssignment
  | typeAliasDeclaration | module | internalModule | ambientDeclaration
deriving DecidableEq, Repr, Inhabited

/-- What a node is: a token with its spelling, or the result of a rule. -/
inductive Kind where
  | token (spelling : String)
  | rule (rule : Rule)
deriving DecidableEq, Repr, Inhabited

namespace Kind

/-- The named nodes are those that a rule has built. -/
def named : Kind → Bool
  | token _ => false
  | rule _ => true

end Kind

/-- The part that a child plays in its parent. -/
inductive Field where
  | name | newName | source | declaration | value
  | parameter | parameters | pattern | left | body
  | operator | property
deriving DecidableEq, Repr, Inhabited

end CodeAtlas.Syntax
