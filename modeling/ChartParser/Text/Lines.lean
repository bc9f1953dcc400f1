/-!
# Lines

A line feed ends a line, and a carriage return right before it belongs to the
end. Nothing else ends a line. What follows the last line feed is a line of its
own unless it is empty, and keeps a carriage return at its end.
-/

namespace ChartParser.Text

/-- A sequence taken apart at the items that end a piece: the pieces that have been ended, without
these items, and what follows the last of them. -/
structure Pieces (Item : Type) where
  ended : List (List Item)
  rest : List Item

/-- Take a sequence apart at every occurrence of one item. -/
def pieces {Item : Type} [BEq Item] (terminator : Item) (items : List Item) : Pieces Item :=
  let parts := items.splitOn terminator
  ⟨parts.dropLast, parts.getLastD []⟩

/-- Leave out the last item if it is the given one. -/
def dropFinal {Item : Type} [DecidableEq Item] (item : Item) (items : List Item) : List Item :=
  if items.getLast? = some item then items.dropLast else items

/-- The lines of a text, without their ends. -/
def lines (text : String) : List String :=
  let parts := pieces '\n' text.toList
  let unended := if parts.rest.isEmpty then [] else [parts.rest]
  (parts.ended.map (dropFinal '\r') ++ unended).map String.ofList

end ChartParser.Text
