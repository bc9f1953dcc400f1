import ChartParser.Chart.Span
import ChartParser.Tree.Basic

/-!
# Charts

A chart holds, for every span of a sentence, the ways in which the span can be
derived. An entry does not hold its tree: it points to the token, or to one
entry of each half of its span, and trees are read off only when they are asked
for. The chart also counts the entries that have been created and knows how
many it may create.
-/

namespace ChartParser

/-- How many chart entries a parse may create. -/
inductive Budget where
  | unlimited
  | entries (limit : Nat)
deriving DecidableEq, Repr

/-- Where an entry comes from: a token of the sentence, or an entry of each of the two cells that a
split position leaves. -/
inductive Origin where
  | token (position : Nat)
  | split (middle left right : Nat)
deriving DecidableEq, Repr

/-- One way to derive a span from a symbol. -/
structure Entry where
  symbol : Symbol
  origin : Origin
deriving DecidableEq, Repr

/-- The entries of one span, in the order in which they were found. -/
abbrev Cell := Array Entry

/-- The cells of every span of a sentence, each at the place that `Span.index` gives, with the
number of entries created so far and the limit on it. -/
structure Chart where
  length : Nat
  cells : Array Cell
  created : Nat
  budget : Budget
deriving Repr

/-- A chart that has created more entries than it may. -/
structure Overrun where
  limit : Nat
  chart : Chart
deriving Repr

namespace Chart

/-- The chart of a sentence before any cell has been filled. -/
def empty (length : Nat) (budget : Budget) : Chart where
  length := length
  cells := Array.replicate (Span.count length) #[]
  created := 0
  budget := budget

/-- The entries of a span. -/
def cell (chart : Chart) (span : Span) : Cell :=
  chart.cells[span.index chart.length]?.getD #[]

/-- The limit, if so many entries beyond those created go over it. -/
def exceededBy (chart : Chart) (pending : Nat) : Option Nat :=
  match chart.budget with
  | .unlimited => none
  | .entries limit => if limit < chart.created + pending then some limit else none

/-- Add an entry to a cell that is being collected. The failure is the grown cell: its last entry
goes over the budget, and nothing more is collected. -/
def collect (chart : Chart) (cell : Cell) (entry : Entry) : Except Cell Cell :=
  let grown := cell.push entry
  match chart.exceededBy grown.size with
  | none => .ok grown
  | some _ => .error grown

/-- Count the entries of a collected cell and, if the budget covers them, put the cell in its
place. -/
def store (chart : Chart) (span : Span) (cell : Cell) : Except Overrun Chart :=
  let charged := { chart with created := chart.created + cell.size }
  match charged.exceededBy 0 with
  | none =>
      .ok { charged with
        cells := charged.cells.setIfInBounds (span.index charged.length) cell }
  | some limit => .error ⟨limit, charged⟩

/-- The tree of one entry of a span. There is none if the entry, or one that it points to, does
not exist, or if a split does not lie inside its span. -/
def tree? (chart : Chart) (tokens : List Token) (span : Span) (position : Nat) : Option Tree :=
  match (chart.cell span)[position]? with
  | none => none
  | some ⟨symbol, .token place⟩ => tokens[place]?.map (Tree.leaf symbol)
  | some ⟨symbol, .split middle left right⟩ =>
      if _inside : span.start < middle ∧ middle < span.stop then
        match chart.tree? tokens ⟨span.start, middle⟩ left,
            chart.tree? tokens ⟨middle, span.stop⟩ right with
        | some leftTree, some rightTree => some (.node symbol leftTree rightTree)
        | _, _ => none
      else
        none
termination_by span.stop - span.start

/-- The trees of the entries of the whole sentence that carry a symbol, in order. -/
def treesOf (chart : Chart) (tokens : List Token) (symbol : Symbol) : List Tree :=
  let whole := Span.whole chart.length
  (chart.cell whole).toList.zipIdx.filterMap fun (entry, position) =>
    if entry.symbol = symbol then chart.tree? tokens whole position else none

end Chart

end ChartParser
