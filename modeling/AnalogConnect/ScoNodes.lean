import Mathlib.Data.List.Destutter
import Mathlib.Data.List.Sort
import AnalogConnect.Library.JsonValue
import AnalogConnect.ScoWatchdog

/-!
# Locating the SCO nodes

PipeWire's snapshot lists all its objects. The call's audio is connected to the one source and the
one sink that the Bluetooth SCO factories made, by their serials. What runs the dump and what parses
its text are given.
-/

namespace AnalogConnect

structure ScoNodePair where
  sourceSerial : ℕ
  sinkSerial : ℕ
deriving DecidableEq

/-- `str::parse::<u32>`. -/
def parseU32 (text : String) : Option ℕ :=
  let digits := if text.toList.head? = some '+' then text.toList.tail else text.toList
  let value := digits.foldl (fun n c => 10 * n + (c.toNat - 48)) 0
  if digits ≠ [] ∧ digits.all Char.isDigit ∧ value < 2 ^ 32 then some value else none

def parsePipewireSerial (value : JsonValue) : Option ℕ :=
  (value.asStr.bind parseU32).or
    (value.asU64.bind fun n => if n.toNat < 2 ^ 32 then some n.toNat else none)

def nodeType : String := "PipeWire:Interface:Node"

def sourceFactory : String := "api.bluez5.sco.source"

def sinkFactory : String := "api.bluez5.sco.sink"

namespace ScoNodeLocator

/-- The serial of an object that is a node. -/
def nodeSerial (object : JsonValue) : Option ℕ :=
  if (object.get "type").bind (·.asStr) = some nodeType then
    (object.pointer ["info", "props", "object.serial"]).bind parsePipewireSerial
  else none

def factoryName (object : JsonValue) : Option String :=
  (object.pointer ["info", "props", "factory.name"]).bind (·.asStr)

/-- The loop over the objects, which pushes a serial to the sources or to the sinks. -/
def collect : List ℕ × List ℕ → List JsonValue → List ℕ × List ℕ
  | serials, [] => serials
  | (sources, sinks), object :: objects =>
    match nodeSerial object with
    | none => collect (sources, sinks) objects
    | some serial =>
      if factoryName object = some sourceFactory then
        collect (sources ++ [serial], sinks) objects
      else if factoryName object = some sinkFactory then
        collect (sources, sinks ++ [serial]) objects
      else collect (sources, sinks) objects

/-- `sort_unstable` and `dedup`. -/
def sortedSerials (serials : List ℕ) : List ℕ :=
  (serials.insertionSort (· ≤ ·)).destutter (· ≠ ·)

/-- The serials of either side, checked. -/
def checkSerials : List ℕ → List ℕ → Except ScoNodeError ScoNodePair
  | [], [] => .error .absent
  | [source], [sink] =>
    if source = sink then .error .ambiguous
    else .ok { sourceSerial := source, sinkSerial := sink }
  | _, _ => .error .ambiguous

def locate (fromStr : String → Option JsonValue) (dump : Except Unit String) :
    Except ScoNodeError ScoNodePair :=
  match dump with
  | .error () => .error .unavailable
  | .ok text =>
    match (fromStr text).bind (·.asArray) with
    | none => .error .invalidSnapshot
    | some objects =>
      let (sources, sinks) := collect ([], []) objects
      checkSerials (sortedSerials sources) (sortedSerials sinks)

end ScoNodeLocator

end AnalogConnect
