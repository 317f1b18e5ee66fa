import Walkthrough.Decimal.Double
/-!
# JSON values

A value as the tool server sends it and as reports hold it. Integers are
unbounded and apart from doubles; the fields of a record keep their order, and
a reader never gives one name to two of them.
-/

namespace Walkthrough.Json

/-- A JSON value. -/
inductive Value where
  | null
  | bool (b : Bool)
  | int (n : Int)
  | float (d : Double)
  | text (s : String)
  | list (items : List Value)
  | record (fields : List (String × Value))
deriving Repr, Inhabited

namespace Value

/-- The field of a name in some fields. -/
def lookup (fields : List (String × Value)) (name : String) : Option Value :=
  (fields.find? (·.1 = name)).map (·.2)

/-- The field of a name; a value that is no record has none, and a field that
is absent reads as null. -/
def field (v : Value) (name : String) : Value :=
  match v with
  | record fields => (lookup fields name).getD null
  | _ => null

/-- The value is null. -/
def isNull : Value → Bool
  | null => true
  | _ => false

/-- The value is the given text. -/
def isText (v : Value) (s : String) : Bool :=
  match v with
  | text t => t = s
  | _ => false

/-- The text that a value is. -/
def text? : Value → Option String
  | text s => some s
  | _ => none

/-- What counts as true: a true boolean, a number that is not zero, a text, a
list or a record that is not empty. -/
def truthy : Value → Bool
  | null => false
  | bool b => b
  | int n => n ≠ 0
  | float d => !d.isZero
  | text s => s ≠ ""
  | list items => !items.isEmpty
  | record fields => !fields.isEmpty

/-- Fields with one more; the later of two fields of one name is kept, in the
place of the earlier. -/
def put (fields : List (String × Value)) (name : String) (v : Value) : List (String × Value) :=
  if fields.any (·.1 = name) then fields.map fun f => if f.1 = name then (name, v) else f
  else fields ++ [(name, v)]

/-- A list of texts. -/
def texts (ss : List String) : Value := list (ss.map text)

/-- A text or null. -/
def ofText? : Option String → Value
  | some s => text s
  | none => null

/-- A natural number. -/
def nat (n : Nat) : Value := int n

end Value

end Walkthrough.Json
