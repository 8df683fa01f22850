import SourceSurvey.Marking.Action
import SourceSurvey.Trail.Rule

/-!
# The rules

The rules come in groups, one for each concern. On every visit each group is asked once, and within a
group the first rule that applies decides; so a node can be marked by several groups, but by one rule
of each.
-/

namespace SourceSurvey

abbrev MarkRule := Rule Guard MarkAction

namespace MarkRule

open Step MarkAction

def tag : Step := oneOf tagKinds

/-- A pair of parentheses around what is returned, or none. -/
def maybeParens : Step := optionally (kind "parenthesized_expression")

def formalParameter : Step := oneOf ["required_parameter", "optional_parameter"]

def imports : List MarkRule :=
  [ { alternatives := [([kind "import_statement"], importStatement)] },
    { alternatives :=
        [ ([kind "import_statement", kind "import_clause", kind "identifier"],
            importName "import-default"),
          ([kind "import_statement", kind "import_require_clause", kind "identifier"],
            importName "import-default"),
          ([kind "import_statement", kind "import_clause", kind "named_imports", kind "import_specifier",
            under "alias" (kind "identifier")], importName "import-alias"),
          ([kind "import_statement", kind "import_clause", kind "named_imports", kind "import_specifier",
            under "name" (kind "identifier")], importName "import-name"),
          ([kind "import_statement", kind "import_clause", kind "namespace_import", kind "identifier"],
            importName "import-namespace") ] },
    { alternatives :=
        [ ([kind "import_statement", under "source" (kind "string")], importPath),
          ([kind "import_statement", kind "import_require_clause", under "source" (kind "string")],
            importPath) ] } ]

def names : List MarkRule :=
  [ { alternatives :=
        [([kind "variable_declarator", under "name" (kind "identifier")],
            declaredName .variableName "variable" 2)] },
    { alternatives :=
        [ ([oneOf ["function_declaration", "generator_function_declaration"],
            under "name" (kind "identifier")], declaredName .functionName "function" 1),
          ([kind "method_definition", under "name" { kinds := none }],
            declaredName .functionName "method" 1) ] } ]

def classNames : List MarkRule :=
  [ { alternatives :=
        [([oneOf ["class_declaration", "abstract_class_declaration", "class"],
            under "name" (oneOf ["type_identifier", "identifier"])],
            declaredName .className "class" 1)] } ]

def calls : List MarkRule :=
  [ { alternatives :=
        [ ([kind "call_expression"], call "function" "call"),
          ([kind "new_expression"], call "constructor" "new") ] } ]

/-- Components: the shapes in which one is returned, then plain use of tags. -/
def components : List MarkRule :=
  [ { alternatives :=
        [ ([kind "return_statement", maybeParens, kind "jsx_element", kind "jsx_opening_element", tag],
            returnedComponent "jsx-open-return"),
          ([kind "return_statement", maybeParens, kind "jsx_self_closing_element", tag],
            returnedComponent "jsx-self-return"),
          ([kind "arrow_function", maybeParens, kind "jsx_element", kind "jsx_opening_element", tag],
            returnedComponent "jsx-open"),
          ([kind "arrow_function", maybeParens, kind "jsx_self_closing_element", tag],
            returnedComponent "jsx-self") ] },
    { alternatives :=
        [ ([kind "return_statement", maybeParens, kind "jsx_element", kind "jsx_opening_element"],
            returnedComponent "jsx-fragment-open-return"),
          ([kind "arrow_function", maybeParens, kind "jsx_element", kind "jsx_opening_element"],
            returnedComponent "jsx-fragment-open") ]
      guard := some .nameless },
    { alternatives :=
        [ ([kind "jsx_opening_element", tag], component "jsx-open"),
          ([kind "jsx_self_closing_element", tag], component "jsx-self"),
          ([kind "jsx_closing_element", tag], component "jsx-close") ] },
    { alternatives :=
        [ ([kind "jsx_opening_element"], component "jsx-fragment-open"),
          ([kind "jsx_closing_element"], component "jsx-fragment-close") ]
      guard := some .nameless } ]

/-- Property access outside tags and callees. -/
def properties : List MarkRule :=
  [ { alternatives := [([kind "member_expression"], propertyChain)]
      guard := some .outermostChain } ]

/-- Parameters, and the fields of destructured parameters and variables. -/
def parameters : List MarkRule :=
  [ { alternatives :=
        [ ([kind "formal_parameters", formalParameter, under "pattern" (kind "identifier")],
            parameter "param"),
          ([kind "arrow_function", under "parameter" (kind "identifier")], parameter "param") ] },
    { alternatives :=
        [([kind "formal_parameters", formalParameter, under "pattern" (kind "rest_pattern"),
            kind "identifier"], parameter "rest-param")] },
    { alternatives := [([kind "object_pattern"], objectPattern)] },
    { alternatives :=
        [ ([kind "object_pattern", kind "shorthand_property_identifier_pattern"], patternField 1),
          ([kind "object_pattern", kind "object_assignment_pattern",
            under "left" (kind "shorthand_property_identifier_pattern")], patternField 2),
          ([kind "object_pattern", kind "pair_pattern", under "value" (kind "identifier")],
            patternField 2) ] } ]

/-- The punctuation of arrow functions and of calls that pass a function. -/
def arrowPunctuation : List MarkRule :=
  [ { alternatives :=
        [ ([kind "arrow_function", kind "formal_parameters", kind "("], punctuation .paren "paren-open"),
          ([kind "arrow_function", kind "formal_parameters", kind ")"],
            punctuation .paren "paren-close") ] },
    { alternatives := [([kind "arrow_function", kind "=>"], punctuation .arrow "arrow")] },
    { alternatives :=
        [ ([kind "call_expression", kind "arguments", kind "("], punctuation .paren "call-paren-open"),
          ([kind "call_expression", kind "arguments", kind ")"], punctuation .paren "call-paren-close") ]
      guard := some .callbackPassed } ]

def functionValues : List MarkRule :=
  [ { alternatives :=
        [ ([kind "variable_declarator", under "value" (kind "arrow_function")],
            functionValue "arrow-bound"),
          ([kind "variable_declarator",
            under "value" (oneOf ["function_expression", "function", "generator_function"])],
            functionValue "function-bound") ] } ]

def objects : List MarkRule :=
  [ { alternatives :=
        [ ([kind "object", kind "\x7b"], punctuation .object "object-open"),
          ([kind "object", kind "\x7d"], punctuation .object "object-close") ] },
    { alternatives :=
        [ ([kind "object", kind "pair", under "key" (kind "property_identifier")], objectProperty),
          ([kind "object", kind "shorthand_property_identifier"], objectProperty) ] } ]

def exports : List MarkRule :=
  [ { alternatives := [([kind "export_statement", kind "export"], exportKeyword)] },
    { alternatives :=
        [ ([kind "export_statement", kind "export_clause", kind "export_specifier",
            under "alias" (kind "identifier")], exportName "export-alias"),
          ([kind "export_statement", kind "export_clause", kind "export_specifier",
            under "name" (kind "identifier")], exportName "export-name"),
          ([kind "export_statement", under "value" (kind "identifier")],
            exportName "export-default") ] } ]

def blocks : List MarkRule :=
  [ { alternatives :=
        [ ([oneOf ["statement_block", "class_body"], kind "\x7b"], punctuation .block "block-open"),
          ([oneOf ["statement_block", "class_body"], kind "\x7d"], punctuation .block "block-close") ] } ]

def comments : List MarkRule :=
  [ { alternatives := [([kind "comment"], comment), ([kind "html_comment"], comment)] } ]

/-- The groups, in the order in which they are asked. -/
def groups : List (List MarkRule) :=
  [imports, names, classNames, calls, components, properties, parameters, arrowPunctuation,
   functionValues, objects, exports, blocks, comments]

end MarkRule

end SourceSurvey
