import EdaParts.Json.Number

/-!
# Documents

`Value` is a document understood. Looking up a member that is not there gives null, as does looking
into what is no object; of two members of one name the later counts.
-/

namespace EdaParts.Json

/-- A document. -/
inductive Value where
  | null
  | bool (b : Bool)
  | number (n : Number)
  | string (s : String)
  | array (items : List Value)
  | object (members : List (String × Value))
  deriving Inhabited

namespace Value

/-- The member of a name, or null. -/
def get (v : Value) (name : String) : Value :=
  match v with
  | object members => ((members.reverse.find? (·.1 = name)).map (·.2)).getD null
  | _ => null

def string? : Value → Option String
  | string s => some s
  | _ => none

def bool? : Value → Option Bool
  | bool b => some b
  | _ => none

/-- The value of a whole number that fits a signed word of 64 bits. -/
def integer? : Value → Option Int
  | number n => n.toInt?
  | _ => none

def items? : Value → Option (List Value)
  | array items => some items
  | _ => none

def isObject : Value → Bool
  | object _ => true
  | _ => false

end Value

end EdaParts.Json
