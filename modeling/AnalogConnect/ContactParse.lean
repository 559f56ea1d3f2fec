import AnalogConnect.Contacts
import AnalogConnect.Library.TextLines

/-!
# Parsing the contacts' listing

The helper lists the contacts as blocks of lines: a name, and under it the numbers, indented. Blocks
are parted by empty lines, and a blank line within one is passed over.
-/

namespace AnalogConnect

inductive ContactParseError
  | missingContactHeader
  | noUsableContacts
deriving DecidableEq

/-- `str::starts_with` white space. -/
def isIndented (line : List Char) : Bool := line.head?.any Text.isWhitespace

def isBlank (line : List Char) : Bool := Text.trimList line = []

/-- The name a header gives. -/
def headerName (header : List Char) : Option String :=
  if Text.trimList header = "(unknown)".toList then none
  else some (String.ofList (Text.trimList header))

/-- What the loop makes of a block. -/
def parseContactBlock (block : List Char) : Except ContactParseError (Option Contact) :=
  match (Text.lines block).filter (!isBlank ·) with
  | [] => .ok none
  | header :: lines =>
    if isIndented header then .error .missingContactHeader
    else
      let phones := (lines.filter isIndented).filterMap fun line =>
        PhoneNumber.parse (String.ofList line)
      .ok (if phones = [] then none
        else some { displayName := headerName header, phones })

/-- The loop over the blocks. -/
def parseContactBlocks : List (List Char) → Except ContactParseError (List Contact)
  | [] => .ok []
  | block :: blocks =>
    match parseContactBlock block with
    | .error error => .error error
    | .ok contact =>
      match parseContactBlocks blocks with
      | .error error => .error error
      | .ok contacts => .ok (contact.toList ++ contacts)

def parseImsgContacts (input : String) : Except ContactParseError (List Contact) :=
  match parseContactBlocks (Text.blocks (Text.replaceCrlf input.toList)) with
  | .error error => .error error
  | .ok contacts =>
    if contacts = [] ∧ Text.trim input ≠ "" ∧ Text.trim input ≠ "(no contacts)" then
      .error .noUsableContacts
    else .ok contacts

end AnalogConnect
