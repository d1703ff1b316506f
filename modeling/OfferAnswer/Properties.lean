/-
OfferAnswer/Properties.lean

Bags of properties: names with texts, truth values or integers, in the order
in which the names were first set.

A caller may hand in values of any kind.  What cannot be a name or a property
is refused, the name being looked at first.
-/
import OfferAnswer.OrderedMap
import OfferAnswer.Value

namespace OfferAnswer

/-- What a property can be. -/
inductive Property where
  | text (t : Text)
  | flag (b : Bool)
  | number (n : Int)

namespace Property

def toValue : Property → Value
  | text t => .text t
  | flag b => .flag b
  | number n => .number n

def ofValue? : Value → Option Property
  | .text t => some (text t)
  | .flag b => some (flag b)
  | .number n => some (number n)
  | _ => none

/-- The integer that a property counts as: a truth value is zero or one. -/
def amount? : Property → Option Int
  | text _ => none
  | flag b => some (if b then 1 else 0)
  | number n => some n

/-- Truth values equal the integers that they count as. -/
instance : BEq Property where
  beq
    | text a, text b => a == b
    | a, b => a.amount?.isSome && a.amount? == b.amount?

end Property

/-- Properties by name. -/
abbrev Properties := OrderedMap Text Property

namespace Properties

/-- Why a bag refuses an operation. -/
inductive Fault where
  | nameKind (name : Value)
  | valueKind (name : Text) (value : Value)
  | missing (name : Value)
  | empty
  /-- Compound values cannot even be looked for. -/
  | compound (kind : String)

def Fault.message : Fault → String
  | nameKind name => "Property names must be strings, got " ++ name.display
  | valueKind name value =>
    "Unsupported value for property " ++ name.toString ++ ": " ++ value.display
  | missing name => name.display
  | empty => ""
  | compound kind => "unhashable type: '" ++ kind ++ "'"

/-! ### Looking up -/

/-- The property under a name, if there is one. -/
def find? (ps : Properties) (name : Value) : Except Fault (Option Property) :=
  match name with
  | .text t => .ok (ps.get? t)
  | .list _ => .error (.compound "list")
  | .record _ => .error (.compound "dict")
  | _ => .ok none

/-- The property under a name. -/
def get (ps : Properties) (name : Value) : Except Fault Property := do
  match ← ps.find? name with
  | some p => return p
  | none => throw (.missing name)

/-! ### Changing -/

/-- Set a property. -/
def set (ps : Properties) (name value : Value) : Except Fault Properties :=
  match name with
  | .text t =>
    match Property.ofValue? value with
    | some p => .ok (ps.insert t p)
    | none => .error (.valueKind t value)
  | _ => .error (.nameKind name)

/-- Drop a property. -/
def delete (ps : Properties) (name : Value) : Except Fault Properties := do
  let _ ← ps.get name
  match name with
  | .text t => return ps.erase t
  | _ => return ps

/-- Set properties one after the other, up to the first that is refused. -/
def update (ps : Properties) : List (Value × Value) → Properties × Option Fault
  | [] => (ps, none)
  | (name, value) :: rest =>
    match ps.set name value with
    | .ok ps => update ps rest
    | .error fault => (ps, some fault)

/-- The bag with some properties, if none of them is refused. -/
def ofPairs (pairs : List (Value × Value)) : Except Fault Properties :=
  match update .empty pairs with
  | (ps, none) => .ok ps
  | (_, some fault) => .error fault

/-- The property under a name, which is set if there is none. -/
def setDefault (ps : Properties) (name value : Value) : Except Fault (Value × Properties) := do
  match ← ps.find? name with
  | some p => return (p.toValue, ps)
  | none => return (value, ← ps.set name value)

/-- Take a property out; without one, there may be another answer. -/
def pop (ps : Properties) (name : Value) (otherwise : Option Value) :
    Except Fault (Value × Properties) := do
  match ← ps.find? name, otherwise with
  | some p, _ => return (p.toValue, ← ps.delete name)
  | none, some value => return (value, ps)
  | none, none => throw (.missing name)

/-- Take the first property out. -/
def popFirst (ps : Properties) : Except Fault ((Text × Property) × Properties) :=
  match ps.entries with
  | [] => .error .empty
  | e :: _ => .ok (e, ps.erase e.1)

/-! ### Showing -/

/-- The bag as a record. -/
def toValue (ps : Properties) : Value :=
  .record (ps.entries.map fun e => (e.1, e.2.toValue))

/-- The bag as messages show it. -/
def display (ps : Properties) : String :=
  "TransportProperties(" ++ ps.toValue.display ++ ")"

end Properties

end OfferAnswer
