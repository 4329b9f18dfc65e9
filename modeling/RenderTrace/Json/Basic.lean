import RenderTrace.Number.Reader

/-!
# Documents

A `Json` value keeps integers of any size apart from doubles and the members of an object in the
order of their names' first appearance. `Json.put` sets a member, `Json.field?` finds one, and
`Json.display` shows a value on one line with quoted texts.
-/

namespace RenderTrace

inductive Json where
  | null
  | bool (b : Bool)
  | number (n : Number)
  | text (s : String)
  | array (items : List Json)
  | object (members : List (String × Json))
  deriving Inhabited

namespace Json

/-- Sets a member: in its place when the name is there, at the end otherwise. -/
def put (name : String) (v : Json) : List (String × Json) → List (String × Json)
  | [] => [(name, v)]
  | (n, w) :: rest => if n = name then (n, v) :: rest else (n, w) :: put name v rest

/-- The members that writing a list of them one after the other leaves: the last value of each name,
at the place of the first. -/
def ofMembers (ms : List (String × Json)) : List (String × Json) :=
  ms.foldl (fun acc m => put m.1 m.2 acc) []

def field? (name : String) : Json → Option Json
  | object ms => (ms.find? (·.1 = name)).map (·.2)
  | _ => none

/-- The items of an array, none of any other value. -/
def items : Json → List Json
  | array xs => xs
  | _ => []

mutual

/-- The numbers of a document, in their order. -/
def numbers : Json → List Number
  | number n => [n]
  | array xs => itemNumbers xs
  | object ms => memberNumbers ms
  | _ => []

/-- The numbers of the items of an array. -/
def itemNumbers : List Json → List Number
  | [] => []
  | x :: xs => numbers x ++ itemNumbers xs

/-- The numbers of the members of an object. -/
def memberNumbers : List (String × Json) → List Number
  | [] => []
  | (_, v) :: ms => numbers v ++ memberNumbers ms

end

mutual

/-- A value on one line. -/
def display : Json → String
  | null => "None"
  | bool b => if b then "True" else "False"
  | number n => n.text
  | text s => Text.quote s
  | array xs => "[" ++ ", ".intercalate (displayItems xs) ++ "]"
  | object ms => "\x7b" ++ ", ".intercalate (displayMembers ms) ++ "\x7d"

/-- The items of an array, each on one line. -/
def displayItems : List Json → List String
  | [] => []
  | x :: xs => display x :: displayItems xs

/-- The members of an object, each on one line. -/
def displayMembers : List (String × Json) → List String
  | [] => []
  | (name, v) :: ms => (Text.quote name ++ ": " ++ display v) :: displayMembers ms

end
end Json
end RenderTrace
