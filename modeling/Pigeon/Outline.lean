import Pigeon.Source.Position

/-!
# Outlines

An outline shows a tree of nodes as indented lines. The line of a node has its kind, its plain
fields and its span; the other fields of the node follow below, each under a line with the name of
the field. A field that is an empty list is left out, and so is an absent one.
-/

namespace Pigeon

mutual

/-- What an outline shows. -/
inductive Outline where
  /-- Plain data, shown as text. -/
  | leaf (shown : String)
  | list (items : List Outline)
  | node (kind : String) (fields : List OutlineField) (span : Option Span)

/-- A named field of a node. -/
inductive OutlineField where
  | mk (name : String) (content : Outline)

end

/-- The text of a span after the kind of a node. -/
def Span.outlineText (s : Span) : String :=
  s!" @{s.start.line}:{s.start.column}-{s.stop.line}:{s.stop.column}"

/-- A plain field as it stands on the line of its node. -/
def OutlineField.attribute? : OutlineField → Option String
  | .mk name (.leaf shown) => some (name ++ "=" ++ shown)
  | .mk _ _ => none

namespace Outline

/-- The blanks at the beginning of a line; there are none if the indentation is negative. -/
def margin (indent : Int) : String :=
  String.ofList (List.replicate (2 * indent).toNat ' ')

/-- The plain fields of a node between parentheses, if there are any. -/
def attributesText (fields : List OutlineField) : String :=
  match fields.filterMap OutlineField.attribute? with
  | [] => ""
  | attributes => "(" ++ ", ".intercalate attributes ++ ")"

/-- The first line of a node. -/
def header (spans : Bool) (kind : String) (fields : List OutlineField)
    (span : Option Span) : String :=
  kind ++ attributesText fields ++ (if spans then (span.map Span.outlineText).getD "" else "")

mutual

/-- The lines of an outline, with or without spans. -/
def lines (spans : Bool) (indent : Int) : Outline → List String
  | leaf shown => [margin indent ++ shown]
  | list items => linesAll spans indent items
  | node kind fields span =>
    (margin indent ++ header spans kind fields span) :: fieldLines spans indent fields

/-- The lines of a list of outlines. -/
def linesAll (spans : Bool) (indent : Int) : List Outline → List String
  | [] => []
  | o :: os => o.lines spans indent ++ linesAll spans indent os

/-- The lines below a node at the given indentation. -/
def fieldLines (spans : Bool) (indent : Int) : List OutlineField → List String
  | [] => []
  | .mk _ (leaf _) :: fields => fieldLines spans indent fields
  | .mk _ (list []) :: fields => fieldLines spans indent fields
  | .mk name content :: fields =>
    (margin indent ++ "  " ++ name ++ ":") :: content.lines spans (indent + 2) ++
      fieldLines spans indent fields

end

end Outline

end Pigeon
