import CrateSafety.Number.Double

/-!
# JSON values

The values that snapshots and configurations are read from. The fields of an object keep their order.
-/

namespace CrateSafety

/-- A JSON value; whole numbers and numbers with a fraction or an exponent are kept apart. -/
inductive Json where
  | null
  | bool (value : Bool)
  | integer (value : Int)
  | decimal (value : Double)
  | string (value : String)
  | array (items : List Json)
  | object (fields : List (String × Json))

namespace Json

/-- The value of a field of an object. -/
def field? (fields : List (String × Json)) (name : String) : Option Json :=
  (fields.find? fun entry => entry.1 == name).map (·.2)

end Json

end CrateSafety
