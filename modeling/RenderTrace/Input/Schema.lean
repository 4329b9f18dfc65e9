import RenderTrace.Json.Basic

/-!
# Schemas

A `Check` finds what is wrong with a document: a list of violations, each with the path that leads to
the place. Checks are put together from small ones, tried in order; a check that concerns one type
of value has nothing to say about values of other types.

Of Draft 7 of JSON Schema, as `jsonschema` validates it, these are the keywords that the shapes of the
input files use: `type`, `required`, `properties`, `additionalProperties`, `items`, `minItems`,
`minLength`, `minimum` and `propertyNames`. A number without a fractional part is an integer, and errors
come by keyword in the order in which the schema has them, with the wording of that package.
-/

namespace RenderTrace.Schema

inductive Step where
  | member (name : String)
  | item (index : Nat)
  deriving DecidableEq, Repr

def Step.text : Step → String
  | member name => name
  | item i => toString i

inductive JsonType where
  | object
  | array
  | string
  | integer
  | boolean
  deriving DecidableEq, Repr

def JsonType.name : JsonType → String
  | object => "object"
  | array => "array"
  | string => "string"
  | integer => "integer"
  | boolean => "boolean"

/-- A value is of a type; a double without a fractional part is an integer. -/
def JsonType.accepts : JsonType → Json → Bool
  | object, .object _ => true
  | array, .array _ => true
  | string, .text _ => true
  | integer, .number (.whole _) => true
  | integer, .number (.double x) => Number.isIntegral x
  | boolean, .bool _ => true
  | _, _ => false

/-- What is wrong at a place. -/
inductive Complaint where
  | type (value : Json) (expected : JsonType)
  | missing (name : String)
  | unexpected (names : List String)
  | belowMinimum (value : Number)
  | empty (value : Json)
  | badName (name : String)

/-- The form of the names of a handle mapping. -/
def namePattern : String := "^(0x[0-9a-fA-F]+|[0-9]+)$"

def Complaint.message : Complaint → String
  | type v t => v.display ++ " is not of type '" ++ t.name ++ "'"
  | missing name => Text.quote name ++ " is a required property"
  | unexpected names =>
    "Additional properties are not allowed (" ++ ", ".intercalate (names.map Text.quote)
      ++ (if names.length = 1 then " was" else " were") ++ " unexpected)"
  | belowMinimum n => n.text ++ " is less than the minimum of 0"
  | empty v => v.display ++ " should be non-empty"
  | badName s => Text.quote s ++ " does not match " ++ Text.quote namePattern

structure Violation where
  path : List Step
  complaint : Complaint

def Violation.message (v : Violation) : String :=
  "Schema error at '" ++ ".".intercalate (v.path.map Step.text) ++ "': " ++ v.complaint.message

/-- The violation seen from one step further out. -/
def Violation.under (s : Step) (v : Violation) : Violation := { v with path := s :: v.path }

/-- Finds what is wrong with a value. -/
abbrev Check := Json → List Violation

/-- Something wrong with the value itself. -/
def complain (c : Complaint) : List Violation := [⟨[], c⟩]

/-! ## Checks -/

/-- Several checks, one after the other. -/
def allOf (checks : List Check) : Check := fun v => checks.flatMap (· v)

def isType (t : JsonType) : Check := fun v => if t.accepts v then [] else complain (.type v t)

def nonNegative : Check
  | .number n => if n < 0 then complain (.belowMinimum n) else []
  | _ => []

def nonEmptyText : Check
  | .text "" => complain (.empty (.text ""))
  | _ => []

def nonEmptyArray : Check
  | .array [] => complain (.empty (.array []))
  | _ => []

/-- Every item of an array passes a check. -/
def items (check : Check) : Check
  | .array xs =>
    (xs.mapIdx fun i x => (check x).map (.under (.item i))).flatten
  | _ => []

/-- An object has members with some names. -/
def required (names : List String) : Check
  | .object ms =>
    names.flatMap fun n => if ms.any (·.1 = n) then [] else complain (.missing n)
  | _ => []

/-- The members of an object that have a check of their own pass it. -/
def members (checks : List (String × Check)) : Check := fun v =>
  checks.flatMap fun (name, check) =>
    match v.field? name with
    | some w => (check w).map (.under (.member name))
    | none => []

/-- An object has no members but those with some names. -/
def closed (names : List String) : Check
  | .object ms =>
    match (ms.map (·.1)).filter (!names.contains ·) with
    | [] => []
    | extra => complain (.unexpected (extra.mergeSort (· ≤ ·)))
  | _ => []

/-- The name of every member of an object has some form. -/
def memberNames (form : String → Bool) : Check
  | .object ms => ms.flatMap fun (n, _) => if form n then [] else complain (.badName n)
  | _ => []

/-- Every member of an object passes a check. -/
def everyMember (check : Check) : Check
  | .object ms => ms.flatMap fun (n, w) => (check w).map (.under (.member n))
  | _ => []

/-! ## Shapes -/

/-- An integer that is not negative. -/
def unsigned : Check := allOf [isType .integer, nonNegative]

/-- An object of which some members are required and all are named. -/
def record (needed : List String) (checks : List (String × Check)) : Check :=
  allOf [isType .object, required needed, members checks, closed (checks.map (·.1))]

/-- An array whose items pass a check. -/
def listOf (check : Check) : Check := allOf [isType .array, items check]

/-- The first violations, at least one and at most `most` of them. -/
def capped (most : Int) (vs : List Violation) : List Violation := vs.take (max 1 most).toNat

end RenderTrace.Schema
