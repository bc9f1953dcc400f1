import ChartParser.Chart.Basic
import ChartParser.Event.Basic

/-!
# Filling a chart

The cells of single tokens are filled first, left to right, then the cells of
longer spans, shortest first. A cell lists its entries by split position, then
by the entry of the left half, then by the entry of the right half, then by the
names of the pair. Filling ends early at the first token that no name expands
to, and at the first entry that goes over the budget; the cell of that entry is
not stored.
-/

namespace ChartParser

/-- A chart on the way, with the events logged so far, first event first. -/
structure Filling where
  chart : Chart
  events : Array Event
deriving Repr

/-- Why filling ended early, and what had been reached. -/
inductive Interruption where
  | unknownToken (filling : Filling)
  | overBudget (limit : Nat) (filling : Filling)
deriving Repr

namespace Chart

/-- The entries of the token at a position, one for every name that expands to it. -/
def collectToken (chart : Chart) (names : List Symbol) (position : Nat) : Except Cell Cell :=
  names.foldlM (fun cell name => chart.collect cell ⟨name, .token position⟩) #[]

/-- The entries of a longer span, from the entries of its halves. -/
def collectSpan (chart : Chart) (grammar : Grammar) (span : Span) : Except Cell Cell :=
  let collectNames middle cell (left right : Entry × Nat) :=
    (grammar.namesForPair left.1.symbol right.1.symbol).foldlM
      (fun cell name => chart.collect cell ⟨name, .split middle left.2 right.2⟩) cell
  let collectSplit cell middle :=
    let lefts := (chart.cell ⟨span.start, middle⟩).toList.zipIdx
    let rights := (chart.cell ⟨middle, span.stop⟩).toList.zipIdx
    lefts.foldlM
      (fun cell left =>
        rights.foldlM (fun cell right => collectNames middle cell left right) cell)
      cell
  span.splits.foldlM collectSplit #[]

end Chart

namespace Filling

/-- Nothing has been filled or logged yet. -/
def start (length : Nat) (budget : Budget) : Filling where
  chart := .empty length budget
  events := #[]

/-- Log an event. -/
def log (filling : Filling) (event : Event) : Filling :=
  { filling with events := filling.events.push event }

/-- Store a collected cell, whole or cut short, and log it. A cell that goes over the budget is
neither stored nor logged. -/
def store (filling : Filling) (span : Span) (collected : Except Cell Cell) :
    Except Interruption Filling :=
  let cell : Cell := match collected with
    | .ok cell => cell
    | .error cell => cell
  match filling.chart.store span cell with
  | .ok chart => .ok ({ filling with chart }.log (.filledCell span cell.size))
  | .error overrun => .error (.overBudget overrun.limit { filling with chart := overrun.chart })

/-- Fill the cell of one token. -/
def fillToken (grammar : Grammar) (filling : Filling) (token : Token) (position : Nat) :
    Except Interruption Filling :=
  match grammar.namesForToken token with
  | [] => .error (.unknownToken (filling.log (.unknownToken token position)))
  | names => filling.store (.single position) (filling.chart.collectToken names position)

/-- Fill the cell of a longer span, whose parts have been filled. -/
def fillSpan (grammar : Grammar) (filling : Filling) (span : Span) : Except Interruption Filling :=
  filling.store span (filling.chart.collectSpan grammar span)

/-- Fill the cells of every single token. -/
def fillTokens (grammar : Grammar) (filling : Filling) (tokens : List Token) :
    Except Interruption Filling :=
  tokens.zipIdx.foldlM (fun filling (token, position) => filling.fillToken grammar token position)
    filling

/-- Fill the cells of every longer span. -/
def fillSpans (grammar : Grammar) (filling : Filling) : Except Interruption Filling :=
  (Span.longer filling.chart.length).foldlM (fillSpan grammar) filling

/-- Fill the whole chart of a sentence. -/
def fill (grammar : Grammar) (budget : Budget) (tokens : List Token) :
    Except Interruption Filling := do
  let filling ← (start tokens.length budget).fillTokens grammar tokens
  filling.fillSpans grammar

end Filling

end ChartParser
