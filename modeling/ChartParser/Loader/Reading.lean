import ChartParser.Loader.Fault
import ChartParser.Loader.Line

/-!
# Grammars from a stream

A stream delivers bytes in pieces of any size. Bytes are gathered until a line
feed ends a line; only then is the line decoded and read. Reading stops at the
first line that is not UTF-8 and at the first fault other than an interruption.
What was registered before stays registered, and an unended line is dropped
when a fault follows it.
-/

namespace ChartParser

/-- What one attempt to read from a stream gives: some bytes, possibly none, or a fault. -/
inductive Delivery where
  | data (bytes : List UInt8)
  | failure (fault : Fault)
deriving DecidableEq, Repr

/-- A load that failed, with what had been loaded and the line that was being read. -/
structure Stopped where
  loading : Loading
  line : Nat
  fault : Fault

/-- A grammar that is being read from a stream, with the number of lines that have been ended and
the bytes of the one that has not. -/
structure Reading where
  loading : Loading
  ended : Nat
  pending : Array UInt8

namespace Reading

/-- The fault of a line that is not UTF-8. -/
def notText : Fault where
  kind := .invalidData
  words := some "stream did not contain valid UTF-8"

/-- Begin to read a stream. -/
def start (loading : Loading) : Reading where
  loading := loading
  ended := 0
  pending := #[]

/-- Stop at the line that is being read. -/
def stop (reading : Reading) (fault : Fault) : Stopped where
  loading := reading.loading
  line := reading.ended + 1
  fault := fault

/-- Read the bytes of the current line. -/
def readLine (reading : Reading) (bytes : Array UInt8) : Except Stopped Reading :=
  match String.fromUTF8? ⟨bytes⟩ with
  | none => .error (reading.stop notText)
  | some text => .ok ⟨reading.loading.readLine text, reading.ended + 1, #[]⟩

/-- The pending bytes, without a carriage return at their end. -/
def pendingLine (reading : Reading) : Array UInt8 :=
  if reading.pending.back? = some 0x0D then reading.pending.pop else reading.pending

/-- Take in one byte. -/
def take (reading : Reading) (byte : UInt8) : Except Stopped Reading :=
  if byte = 0x0A then
    reading.readLine reading.pendingLine
  else
    .ok { reading with pending := reading.pending.push byte }

/-- Take in what one attempt to read gave. -/
def accept (reading : Reading) : Delivery → Except Stopped Reading
  | .data bytes => bytes.foldlM take reading
  | .failure fault =>
      if fault.kind = .interrupted then .ok reading else .error (reading.stop fault)

/-- Read the unended line, if there is one, at the end of the stream. -/
def finish (reading : Reading) : Except Stopped Loading :=
  if reading.pending.isEmpty then
    .ok reading.loading
  else
    (reading.readLine reading.pending).map Reading.loading

end Reading

/-- Add what every line of a stream registers. -/
def Loading.readStream (loading : Loading) (deliveries : List Delivery) :
    Except Stopped Loading := do
  let reading ← deliveries.foldlM Reading.accept (Reading.start loading)
  reading.finish

end ChartParser
