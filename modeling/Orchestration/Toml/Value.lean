/-!
# Values of a configuration file
-/

namespace Orchestration.Toml

/-- A value of a configuration file. -/
inductive Value where
  /-- a text -/
  | string (text : String)
  /-- a whole number -/
  | integer (n : Int)
  /-- a number with a point, an exponent, or no end -/
  | float (x : Float)
  /-- a truth value -/
  | boolean (b : Bool)
  /-- a date, a time of day, or both -/
  | moment (text : String)
  /-- values in a row -/
  | array (items : List Value)
  /-- values under names -/
  | table (entries : List (String × Value))

instance : Inhabited Value := ⟨.table []⟩

end Orchestration.Toml
