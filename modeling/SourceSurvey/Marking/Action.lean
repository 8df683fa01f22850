import SourceSurvey.Marking.Guard
import SourceSurvey.Marking.Markings

/-!
# Actions

An action is what a rule does to the marks when it applies. One action can fail: an object pattern that
is the value of a pair asks for the pattern around the pair, and the trail may end before it.
-/

namespace SourceSurvey

inductive MarkAction where
  | importStatement
  | importName (note : String)
  | importPath
  /-- A declared name, whose statement stands `steps` outwards. -/
  | declaredName (category : Category) (note : String) (steps : Nat)
  /-- A call, whose callee is held under `field`. -/
  | call (field note : String)
  | component (note : String)
  | returnedComponent (note : String)
  | propertyChain
  | parameter (note : String)
  | objectPattern
  /-- A field of the object pattern that stands `steps` outwards. -/
  | patternField (steps : Nat)
  | punctuation (category : Category) (note : String)
  | functionValue (note : String)
  | objectProperty
  | exportKeyword
  | exportName (note : String)
  | comment
deriving DecidableEq, Repr

/-- The text of a string literal without its quotes; a text too short to be quoted stays as it is. -/
def specifierOf (text : String) : String :=
  let stripped := (Text.strip text).toList
  if 2 ≤ stripped.length then String.ofList (stripped.drop 1).dropLast else text

/-- The note on a comment, from the way it opens. -/
def commentNote (text : String) : String :=
  if Text.startsWith "/**" text then "doc-comment"
  else if Text.startsWith "/*" text || Text.startsWith "<!--" text then "block-comment"
  else "line-comment"

/-- The name below which the fields of a destructured parameter are shown: its type without the leading
colons, or else its position among the parameters. -/
def parameterName (a : Arena) (parameter : Nat) : String :=
  let typeName := match a.childOfKind? parameter "type_annotation" with
    | some t => String.ofList ((Text.compact (a.text t)).toList.dropWhile (· == ':'))
    | none => ""
  if typeName != "" then typeName
  else
    let siblings := match a.parent? parameter with
      | some formal => (a.children formal).filter fun j => Text.endsWith "_parameter" (a.kind j)
      | none => []
    "arg" ++ toString ((siblings.findIdx? (· == parameter)).getD 0)

namespace MarkAction

def tagLabel (a : Arena) (i : Nat) (note : String) : String :=
  if Text.contains "fragment" note then "Fragment"
  else if Arena.chainKinds.contains (a.kind i) then a.chainText i
  else Text.compact (a.text i)

/-- The binding of an object pattern, if the place where it stands gives it one. -/
def bindingOf (a : Arena) (v : Visit) (s : Markings) : Except MissingPattern (Option Binding) :=
  match v.trail.outward? 1 with
  | none => .ok none
  | some parent =>
    if parent.kind == "required_parameter" || parent.kind == "optional_parameter" then
      .ok (some ⟨parameterName a parent.index, .parameter, "param-field", false⟩)
    else if parent.kind == "variable_declarator" && a.field v.index == some "name" then
      let name := match a.childByField? parent.index "value" with
        | some value => Text.compact (a.text value)
        | none => "_"
      .ok (some ⟨name, .variableName, "destructured", s.isExported v.trail 2⟩)
    else if parent.kind == "pair_pattern" && a.field v.index == some "value" then
      match v.trail.outward? 2 with
      | none => .error ⟨v.index⟩
      | some around =>
        match s.bindings.lookup around.index, a.childByField? parent.index "key" with
        | some outer, some key => .ok (some { outer with name := outer.name ++ "." ++ Text.compact (a.text key) })
        | _, _ => .ok none
    else .ok none

/-- The name of a field of an object pattern: of a pair its key, otherwise the field itself. -/
def fieldName (a : Arena) (v : Visit) : String :=
  let own := Text.compact (a.text v.index)
  if a.field v.index == some "value" then
    match v.trail.outward? 1 with
    | some pair => match a.childByField? pair.index "key" with
      | some key => Text.compact (a.text key)
      | none => own
    | none => own
  else own

/-- What an action does to the markings. `resolve` finds the file of an import specifier, if there is
anyone to ask. -/
def perform (a : Arena) (resolve : Option (String → Option String)) (v : Visit) (s : Markings) :
    MarkAction → Except MissingPattern Markings
  | importStatement =>
    let source := match a.childByField? v.index "source" with
      | some j => some j
      | none => (a.childOfKind? v.index "import_require_clause").bind fun c => a.childByField? c "source"
    let s := match source with
      | some j => s.change v.index fun m => { m with link := some j }
      | none => s
    .ok (s.attend v.index .imported "import-declaration" "")
  | importName note =>
    let s := match v.trail.findKind? ["import_statement"] 0 with
      | some statement => s.change v.index fun m => { m with link := some statement.index }
      | none => s
    .ok (s.attend v.index .imported note (Text.compact (a.text v.index)))
  | importPath =>
    let specifier := specifierOf (a.text v.index)
    let s := match resolve with
      | none => s
      | some find =>
        let path := find specifier
        let s := s.change v.index fun m => { m with path }
        match v.trail.findKind? ["import_statement"] 0 with
        | some statement => s.change statement.index fun m => { m with path }
        | none => s
    .ok (s.attend v.index .imported "import-path" specifier)
  | declaredName category note steps =>
    let s := match v.trail.outward? 1 with
      | some declaration => s.change declaration.index fun m => { m with link := some v.index }
      | none => s
    let exported := s.isExported v.trail steps
    let s := if exported then
        ((v.trail.nodes.drop 1).take steps).foldl
          (fun s n => s.change n.index fun m => { m with exported := true }) s
      else s
    let s := s.change v.index fun m => { m with exported }
    .ok (s.attend v.index category note (Text.compact (a.text v.index)))
  | call field note =>
    let label := match a.childByField? v.index field with
      | some callee => a.chainText callee
      | none => ""
    .ok (s.attend v.index .call note label)
  | component note => .ok (s.attend v.index .component note (tagLabel a v.index note))
  | returnedComponent note =>
    let s := s.attend v.index .component note (tagLabel a v.index note)
    match s.hostName? v.trail.nodes with
    | none => .ok s
    | some name =>
      let s := s.change v.index fun m => { m with link := some name }
      .ok { s with components := if s.components.contains name then s.components else s.components ++ [name] }
  | propertyChain => .ok (s.attend v.index .property "property" (a.chainText v.index))
  | parameter note => .ok (s.attend v.index .parameter note (Text.compact (a.text v.index)))
  | objectPattern => do
    match ← bindingOf a v s with
    | some binding => .ok { s with bindings := (v.index, binding) :: s.bindings }
    | none => .ok s
  | patternField steps =>
    match (v.trail.outward? steps).bind fun pattern => s.bindings.lookup pattern.index with
    | none => .ok s
    | some binding =>
      let s := s.change v.index fun m => { m with exported := binding.exported }
      .ok (s.attend v.index binding.category binding.note (binding.name ++ "." ++ fieldName a v))
  | punctuation category note => .ok (s.attend v.index category note (Text.compact (a.text v.index)))
  | functionValue note =>
    match v.trail.outward? 1 with
    | none => .ok s
    | some declarator =>
      let mark := s.mark declarator.index
      match mark.link with
      | none => .ok s
      | some name =>
        .ok (s.change name fun m => { m with note, exported := m.exported || mark.exported })
  | objectProperty => .ok (s.attend v.index .property "object-prop" (Text.compact (a.text v.index)))
  | exportKeyword =>
    .ok ((v.trail.nodes.take 2).foldl (fun s n => s.change n.index fun m => { m with exported := true }) s)
  | exportName note =>
    let s := s.change v.index fun m => { m with exported := true }
    .ok (s.attend v.index .exported note (Text.compact (a.text v.index)))
  | comment =>
    let text := a.text v.index
    .ok (s.attend v.index .comment (commentNote text) text)

end MarkAction

end SourceSurvey
