/-!
# JSON values

Objects keep their members in the order written, repeated keys included. Of numbers only natural
ones are ever used; any other number keeps its text.
-/

namespace ScriptLint

/-- A JSON value. -/
inductive Json where
  | null
  | bool (b : Bool)
  | natural (n : Nat)
  | number (text : String)
  | string (s : String)
  | array (items : List Json)
  | object (members : List (String × Json))
deriving Inhabited

namespace Json

/-- The first member of an object with the key. -/
def get? (json : Json) (key : String) : Option Json :=
  match json with
  | object members => members.lookup key
  | _ => none

/-- The text of a string. -/
def string? : Json → Option String
  | string s => some s
  | _ => none

/-- The natural number. -/
def natural? : Json → Option Nat
  | natural n => some n
  | _ => none

/-- The truth value. -/
def bool? : Json → Option Bool
  | bool b => some b
  | _ => none

/-- The items of an array. -/
def array? : Json → Option (List Json)
  | array items => some items
  | _ => none

/-- The members of an object. -/
def object? : Json → Option (List (String × Json))
  | object members => some members
  | _ => none

/-- The texts of an array of strings. -/
def strings? (json : Json) : Option (List String) :=
  json.array?.bind fun items => items.mapM string?

end Json

end ScriptLint
