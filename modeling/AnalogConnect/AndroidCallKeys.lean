import Mathlib.Algebra.Field.Rat
import AnalogConnect.Library.Text

/-!
# Forwarding the phone's call keys

A script reads the lines `getevent` prints for the phone's key events, a few at a time, and forwards
the call key when it goes down and the Power key when its events in what was printed are close
together. Strings are Python's; the stamps, which are floats there, are the rationals they are
written as.
-/

namespace AnalogConnect

namespace AndroidCallKeys

/-- Where `str.splitlines` splits. -/
def isLineBreak (c : Char) : Bool :=
  let n := c.toNat
  (0xA ≤ n && n ≤ 0xD) || (0x1C ≤ n && n ≤ 0x1E) || n == 0x85 || n == 0x2028 || n == 0x2029

/-- `str.splitlines`, with the line being read in front. -/
def splitlines : List Char → List Char → List (List Char)
  | line, [] => if line = [] then [] else [line]
  | line, '\r' :: '\n' :: text => line :: splitlines [] text
  | line, c :: text =>
    if isLineBreak c then line :: splitlines [] text else splitlines (line ++ [c]) text

/-- `word in text`. -/
def contains (word : String) (text : List Char) : Bool :=
  text.tails.any fun rest => word.toList.isPrefixOf rest

/-- `\s` of a pattern. -/
def isSpace (c : Char) : Bool := Text.isWhitespace c || (0x1C ≤ c.toNat && c.toNat ≤ 0x1F)

def isStampChar (c : Char) : Bool := c.isDigit || c == '.'

/-- The group of the stamp's pattern where it matches the beginning of a text. -/
def matchStamp : List Char → Option (List Char)
  | '[' :: text =>
    let text := text.dropWhile isSpace
    let group := text.takeWhile isStampChar
    if group ≠ [] ∧ (text.dropWhile isStampChar).head? = some ']' then some group else none
  | _ => none

/-- `re.search` for the stamp's pattern. -/
def searchStamp : List Char → Option (List Char)
  | [] => none
  | c :: text => (matchStamp (c :: text)).or (searchStamp text)

/-- `float` of digits and dots, where it is one. -/
def float (group : List Char) : Option ℚ :=
  match group.splitOn '.' with
  | [whole] => if whole = [] then none else some (Nat.ofDigitChars 10 whole 0)
  | [whole, fraction] =>
    if whole = [] ∧ fraction = [] then none
    else
      some (Nat.ofDigitChars 10 whole 0 +
        Nat.ofDigitChars 10 fraction 0 / 10 ^ fraction.length)
  | _ => none

def keycodes : List (String × ℕ) := [("KEY_SEND", 5)]

/-- The key code of the first name in a line. -/
def forwarded (line : List Char) : List ℕ :=
  ((keycodes.find? fun (name, _) => contains name line).map (·.2)).toList

/-- The loop over the lines, with the key codes and the Power key's times so far. -/
def parseLines : List ℕ × List ℚ → List (List Char) → Option (List ℕ × List ℚ)
  | found, [] => some found
  | (codes, powerTimes), line :: lines =>
    if contains "EV_KEY" line then
      if contains "KEY_POWER" line then
        match searchStamp line with
        | none => parseLines (codes, powerTimes) lines
        | some group =>
          match float group with
          | none => none
          | some time => parseLines (codes, powerTimes ++ [time]) lines
      else if contains "DOWN" line then parseLines (codes ++ forwarded line, powerTimes) lines
      else parseLines (codes, powerTimes) lines
    else parseLines (codes, powerTimes) lines

/-- The key codes forwarded for an output; `none` where a stamp is not a number. -/
def parseEvents (output : List Char) (powerHoldSeconds : ℚ) : Option (List ℕ) :=
  match parseLines ([], []) (splitlines [] output) with
  | none => none
  | some (codes, powerTimes) =>
    if 2 ≤ powerTimes.length ∧ powerTimes.getLastD 0 - powerTimes.headD 0 < powerHoldSeconds then
      some (codes ++ [26])
    else some codes

/-! ## What is printed -/

/-- The kernel's `input_event`. -/
structure KernelEvent where
  sec : ℕ
  usec : Fin 1000000
  type : UInt16
  code : UInt16
  value : Int32
deriving DecidableEq

namespace KernelEvent

def time (event : KernelEvent) : ℚ := event.sec + event.usec / 1000000

/-- An event of the Power key. -/
def isPower (event : KernelEvent) : Bool := event.type = 1 && event.code = 116

def isPowerDown (event : KernelEvent) : Bool := event.isPower && event.value = 1

def isPowerUp (event : KernelEvent) : Bool := event.isPower && event.value = 0

/-- The digits of the seconds, and six of the microseconds. -/
def stamp (event : KernelEvent) : List Char :=
  Nat.toDigits 10 event.sec ++ '.' :: (Nat.toDigits 10 event.usec).leftpad 6 '0'

end KernelEvent

/-- The lines of `getevent -lt`: each begins with the event's stamp, padded in brackets, and the
labels of the Power key are in its lines. -/
structure Getevent where
  line : KernelEvent → List Char
  unbroken : ∀ event, ∀ c ∈ line event, isLineBreak c = false
  stamped : ∀ event, ∃ blanks rest, (∀ c ∈ blanks, c = ' ') ∧
    line event = '[' :: (blanks ++ (event.stamp ++ ']' :: rest))
  labelled : ∀ event, event.isPower = true →
    contains "EV_KEY" (line event) = true ∧ contains "KEY_POWER" (line event) = true

/-- What is printed of events. -/
def Getevent.output (getevent : Getevent) (events : List KernelEvent) : List Char :=
  events.flatMap fun event => getevent.line event ++ ['\n']

end AndroidCallKeys

end AnalogConnect
