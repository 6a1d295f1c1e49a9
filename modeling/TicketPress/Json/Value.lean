/-!
# JSON values

The values a document of this library holds. Numbers keep apart the integers
of 64 bits, signed or unsigned, and everything else, which is a float: a
reader of a whole number refuses a float even when it is whole.
-/

namespace TicketPress.Json

/-- A number of a document. -/
inductive Number where
  | integer (value : Int)
  | float (value : Float)

/-- A JSON value; the members of an object keep their order. -/
inductive Value where
  | null
  | boolean (value : Bool)
  | number (value : Number)
  | text (value : String)
  | array (items : List Value)
  | object (members : List (String × Value))

/-- A member put into a list of members in the order of their names. -/
def insertMember (name : String) (value : Value) : List (String × Value) → List (String × Value)
  | [] => [(name, value)]
  | member :: members =>
    if name < member.1 then (name, value) :: member :: members
    else member :: insertMember name value members

/-- An object whose members stand in the order of their names. -/
def Value.sorted (members : List (String × Value)) : Value :=
  .object (members.foldr (fun member sorted => insertMember member.1 member.2 sorted) [])

/-- A member of an object that is there if its value is. -/
def optionalMember (name : String) (value : Option Value) : List (String × Value) :=
  value.toList.map fun value => (name, value)

/-- A natural number as a value. -/
def Value.ofNat (n : Nat) : Value := .number (.integer n)

end TicketPress.Json
