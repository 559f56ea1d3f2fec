import AnalogConnect.Library.Text
import AnalogConnect.Conversations

/-!
# Contacts

Phone numbers, the contact store's name search, and the endpoint that serves it a page at a time.
SQLite's `LIKE` and `NOCASE` fold the case of ASCII letters alone.
-/

namespace AnalogConnect

/-- `display` is what is shown, `normalized` the digits used for matching. -/
structure PhoneNumber where
  display : String
  normalized : String
deriving DecidableEq

structure Contact where
  displayName : Option String
  phones : List PhoneNumber
deriving DecidableEq

def PhoneNumber.parse (input : String) : Option PhoneNumber :=
  let trimmed := Text.trim input
  let digits := trimmed.toList.filter Char.isDigit
  if digits.length < 3 then none
  else
    let international := ['+'].isPrefixOf trimmed.toList || ['0', '0'].isPrefixOf trimmed.toList
    some
      { display := trimmed
        normalized :=
          if international then String.ofList ('+' :: digits.dropWhile (· = '0'))
          else String.ofList digits }

def PhoneNumber.matchKey (p : PhoneNumber) : String :=
  String.ofList (p.normalized.toList.dropWhile (· = '+'))

/-! ## The store -/

structure ContactRow where
  id : ℤ
  displayName : Option String
deriving DecidableEq

structure ContactPhoneRow where
  id : ℤ
  contactId : ℤ
  displayNumber : String
  normalizedNumber : String
deriving DecidableEq

structure ContactStore where
  contacts : List ContactRow
  phones : List ContactPhoneRow

/-- `text LIKE pattern ESCAPE '\'`. -/
def like : List Char → List Char → Bool
  | [], text => text = []
  | '%' :: pattern, text => text.tails.any fun rest => like pattern rest
  | '_' :: pattern, text =>
    match text with
    | [] => false
    | _ :: rest => like pattern rest
  | ['\\'], _ => false
  | '\\' :: escaped :: pattern, text =>
    match text with
    | [] => false
    | c :: rest => Text.lowerAscii c = Text.lowerAscii escaped && like pattern rest
  | literal :: pattern, text =>
    match text with
    | [] => false
    | c :: rest => Text.lowerAscii c = Text.lowerAscii literal && like pattern rest

/-- `ORDER BY display_name COLLATE NOCASE, id`, of rows that have a name. -/
def ContactRow.Before (a b : ContactRow) : Prop :=
  let folded (row : ContactRow) := (row.displayName.getD "").toList.map Text.lowerAscii
  folded a < folded b ∨ folded a = folded b ∧ a.id ≤ b.id

instance : DecidableRel ContactRow.Before := fun _ _ => inferInstanceAs (Decidable (_ ∨ _))

namespace ContactStore

def loadPhones (store : ContactStore) (contactId : ℤ) : List PhoneNumber :=
  ((store.phones.filter (·.contactId = contactId)).insertionSort fun a b => a.id ≤ b.id).map
    fun row => ⟨row.displayNumber, row.normalizedNumber⟩

/-- The search's pattern, the query's own wildcards escaped. -/
def namePattern (query : String) : String :=
  "%" ++ Text.replaceChar '_' "\\_" (Text.replaceChar '%' "\\%"
    (Text.replaceChar '\\' "\\\\" query)) ++ "%"

/-- The contacts whose names match, in the search's order. -/
def namedContacts (store : ContactStore) (query : String) : List ContactRow :=
  (store.contacts.filter fun row =>
    row.displayName.any fun name => like (namePattern query).toList name.toList).insertionSort
    ContactRow.Before

def searchNamesPage (store : ContactStore) (query : String) (limit offset : ℕ) : List Contact :=
  (((store.namedContacts query).drop offset).take (min limit 101)).map fun row =>
    ⟨row.displayName, store.loadPhones row.id⟩

end ContactStore

/-! ## The endpoint -/

structure ContactItem where
  displayName : Option String
  phoneNumbers : List String
deriving DecidableEq

def ContactItem.ofContact (contact : Contact) : ContactItem :=
  ⟨contact.displayName, contact.phones.map (·.display)⟩

structure ContactPageRequest where
  query : Option String
  cursor : Option String
  limit : Option ℕ

/-- The endpoint's check of the query. -/
def queryRefused (query : String) : Bool :=
  query.toList.length > 100 || query.toList.any fun c => c = '\r' ∨ c = '\n' ∨ c = '\x00'

def contactPage (store : ContactStore) (request : ContactPageRequest) :
    Except StatusCode (Page ContactItem) :=
  let query := request.query.getD ""
  if queryRefused query then .error .unprocessableEntity
  else
  match PageCursor.parse request.cursor with
  | .error error => .error (conversationStatus error)
  | .ok cursor =>
  match pageLimit request.limit with
  | .error error => .error error
  | .ok limit =>
  if limit + 1 > u16Max then .error .unprocessableEntity
  else if cursor.offset > u16Max then .error .unprocessableEntity
  else
    let contacts := store.searchNamesPage query (limit + 1) cursor.offset
    let items := (contacts.take limit).map .ofContact
    .ok
      { items
        nextCursor :=
          if contacts.length > limit then some (cursor.advance items.length).encode else none }

end AnalogConnect
