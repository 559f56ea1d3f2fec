import AnalogConnect.Library.SqlSelect
import AnalogConnect.ContactSync

/-!
# Who is calling

A caller's number is looked up among the contacts' numbers by one query, for a number of the same
digits or of the same last ten. The first two contacts found are enough to tell whether there is
one alone. The database does not fail here, and its lock is never poisoned.
-/

namespace AnalogConnect

/-- The last ten digits of a key, or all of one that is shorter. -/
def callerSuffix (key : String) : String :=
  if 10 ≤ key.toList.length then String.ofList (key.toList.drop (key.toList.length - 10)) else key

namespace ContactStore

/-- The query's condition on a phone. -/
def callerMatches (key suffix : String) (phone : ContactPhoneRow) : Bool :=
  Sql.trim '+' phone.normalizedNumber = key ||
    (suffix ≠ "" && Sql.like ('%' :: suffix.toList) (Sql.trim '+' phone.normalizedNumber).toList)

/-- The contacts found, at most two. -/
def callerRows (store : ContactStore) (key suffix : String) : List ContactRow :=
  ((Sql.distinctJoin (fun contact =>
      store.phones.filter fun phone =>
        phone.contactId = contact.id && callerMatches key suffix phone)
    store.contacts).insertionSort fun a b => a.id ≤ b.id).take 2

def lookupCaller (store : ContactStore) (incoming : String) : Option Contact :=
  match PhoneNumber.parse incoming with
  | none => none
  | some parsed =>
    let rows := store.callerRows parsed.matchKey (callerSuffix parsed.matchKey)
    if rows.length ≠ 1 then none
    else rows.head?.map fun row => ⟨row.displayName, store.loadPhones row.id⟩

end ContactStore

end AnalogConnect
