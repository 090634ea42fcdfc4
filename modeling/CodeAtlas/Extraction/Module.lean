import CodeAtlas.Extraction.Class

/-!
# Imports and exports in a syntax tree
-/

namespace CodeAtlas.Extraction

open CodeAtlas.Syntax

/-- A literal without its quotes. -/
def unquoted (literal : String) : String :=
  match literal.toList with
  | q :: rest =>
    if (q = '\'' || q = '"' || q = '`') && rest.getLast? == some q then
      String.ofList rest.dropLast
    else literal
  | [] => literal

/-- The name that an entry of an import or export binds or gives away. -/
def entryName? (entry : Node) : Option String :=
  ((entry.child? .newName).or (entry.child? .name)).map (·.text)

/-- The names that a part of an import clause binds. -/
def boundNames (part : Node) : List String :=
  if part.isRule .identifier then [part.text]
  else if part.isRule .namespaceImport then
    (part.namedChildren.filter (·.isRule .identifier)).map (·.text)
  else if part.isRule .namedImports then
    (part.namedChildren.filter (·.isRule .importSpecifier)).filterMap entryName?
  else []

/-- The imports that are recorded at a site: every import statement that names a module. -/
def importsAt (s : Site) : List ImportRecord :=
  if !s.node.isRule .importStatement then []
  else match s.node.child? .source with
    | none => []
    | some source =>
      let parts := ((s.node.namedChildren.find? (·.isRule .importClause)).map
        (·.namedChildren)).getD []
      [⟨unquoted source.text, parts.flatMap boundNames, s.node.line,
        parts.any (·.isRule .identifier)⟩]

/-- The rules of types that are declared. -/
def declaredTypeRules : List Rule :=
  [.interfaceDeclaration, .typeAliasDeclaration, .enumDeclaration]

/-- The names that a declaration gives away. -/
def declaredExports (declaration : Node) : List ExportRecord :=
  let named (kind : ExportKind) : List ExportRecord :=
    ((declaration.child? .name).map fun n => ⟨n.text, declaration.line, kind⟩).toList
  if declaration.isAmong declaredRules then named .function
  else if declaration.isAmong declaredClassRules then named .classType
  else if declaration.isAmong declaredTypeRules then named .binding
  else if declaration.isAmong [.lexicalDeclaration, .variableDeclaration] then
    (declaration.namedChildren.filter (·.isRule .variableDeclarator)).filterMap fun d =>
      match d.child? .name with
      | some n => if n.isRule .identifier then some ⟨n.text, d.line, .binding⟩ else none
      | none => none
  else []

/-- The exports that are recorded at a site. -/
def exportsAt (s : Site) : List ExportRecord :=
  if !s.node.isRule .exportStatement then []
  else
    let isDefault := s.node.hasToken "default"
    match s.node.child? .declaration with
    | some declaration =>
      if isDefault then
        [⟨((declaration.child? .name).map (·.text)).getD "default", declaration.line, .byDefault⟩]
      else declaredExports declaration
    | none =>
      if isDefault then
        let name := match s.node.child? .value with
          | some value => if value.isRule .identifier then value.text else "default"
          | none => "default"
        [⟨name, s.node.line, .byDefault⟩]
      else match s.node.namedChildren.find? (·.isRule .exportClause) with
        | some clause =>
          (clause.namedChildren.filter (·.isRule .exportSpecifier)).filterMap fun entry =>
            (entryName? entry).map fun name => ⟨name, entry.line, .binding⟩
        | none => []

end CodeAtlas.Extraction
