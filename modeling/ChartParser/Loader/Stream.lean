import ChartParser.Loader.Reading
import ChartParser.Text.Encoding

/-!
# Outcomes of a load

A stream delivers some bytes and then ends, or meets a fault. How it is cut into
pieces does not matter, and interruptions do not count. The bytes are ended lines
and a rest, and the first thing wrong with them decides the outcome of a load.
-/

namespace ChartParser

/-- The bytes that a stream delivers, with the fault that keeps it from its end if there is one. -/
structure Delivered where
  bytes : List UInt8
  fault : Option Fault
deriving DecidableEq, Repr

namespace Delivered

/-- What attempts to read deliver together. Nothing counts after a fault that is not an
interruption. -/
def ofDeliveries : List Delivery → Delivered
  | [] => ⟨[], none⟩
  | .data bytes :: later =>
      ⟨bytes ++ (ofDeliveries later).bytes, (ofDeliveries later).fault⟩
  | .failure fault :: later =>
      if fault.kind = .interrupted then ofDeliveries later else ⟨[], some fault⟩

/-- The lines that are ended by a line feed, without it. -/
def lines (delivered : Delivered) : List (List UInt8) :=
  (Text.pieces 0x0A delivered.bytes).ended

/-- What follows the last line feed. -/
def rest (delivered : Delivered) : List UInt8 :=
  (Text.pieces 0x0A delivered.bytes).rest

end Delivered

/-- Add what ended lines register. A carriage return at the end of a line belongs to its end. -/
def Loading.readEnded (loading : Loading) (lines : List String) : Loading :=
  lines.foldl
    (fun loading line => loading.readLine (String.ofList (Text.dropFinal '\r' line.toList)))
    loading

/-- The outcome of loading what a stream delivers. The first ended line that is not text decides it,
whatever follows. Next comes a fault of the stream, which stops the load in the line after the ended
ones and drops the rest, and then a rest that is not text. When nothing is wrong the rest is a last
line. -/
inductive LoadOutcome (loading : Loading) (delivered : Delivered) :
    Except Stopped Loading → Prop where
  | badLine {before : List String} {bad : List UInt8} {after : List (List UInt8)}
      (lines : delivered.lines = before.map Text.bytes ++ bad :: after)
      (notText : ∀ text, bad ≠ Text.bytes text) :
      LoadOutcome loading delivered
        (.error ⟨loading.readEnded before, before.length + 1, Reading.notText⟩)
  | fault {texts : List String} {fault : Fault}
      (lines : delivered.lines = texts.map Text.bytes) (faulty : delivered.fault = some fault) :
      LoadOutcome loading delivered
        (.error ⟨loading.readEnded texts, texts.length + 1, fault⟩)
  | badRest {texts : List String} (lines : delivered.lines = texts.map Text.bytes)
      (whole : delivered.fault = none) (notText : ∀ text, delivered.rest ≠ Text.bytes text) :
      LoadOutcome loading delivered
        (.error ⟨loading.readEnded texts, texts.length + 1, Reading.notText⟩)
  | loaded {texts : List String} {last : String}
      (lines : delivered.lines = texts.map Text.bytes) (whole : delivered.fault = none)
      (rest : delivered.rest = Text.bytes last) :
      LoadOutcome loading delivered (.ok ((loading.readEnded texts).readLine last))

end ChartParser
