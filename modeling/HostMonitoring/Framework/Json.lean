import Mathlib.Data.List.Basic

namespace HostMonitoring.Framework

/-- A JSON value over some kind of numbers. -/
inductive Json (ν : Type) where
  | null
  | bool (b : Bool)
  | num (n : ν)
  | str (s : String)
  | arr (elems : List (Json ν))
  | obj (fields : List (String × Json ν))

namespace Json

variable {ν : Type}

/-- The value of a key, which an object has once. -/
def get? (fields : List (String × Json ν)) (key : String) : Option (Json ν) :=
  (fields.find? fun f => f.1 == key).map Prod.snd

def hasOwn (fields : List (String × Json ν)) (key : String) : Bool := fields.any fun f => f.1 == key

def ofOption {α : Type} (f : α → Json ν) (o : Option α) : Json ν := o.elim .null f

end Json
end HostMonitoring.Framework
