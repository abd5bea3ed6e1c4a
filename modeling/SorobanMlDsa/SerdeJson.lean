import SorobanMlDsa.MachineInt

/-! JSON values as `serde_json` holds them, and the lookups that answer `Null` or
`None` instead of failing. -/
namespace SerdeJson

open MachineInt

inductive Number
  | posInt (n : UInt64)
  /-- Below zero. -/
  | negInt (n : Int64)
  | float (bits : UInt64)

inductive Value
  | null
  | bool (b : Bool)
  | number (n : Number)
  | string (s : String)
  | array (items : List Value)
  | object (fields : List (String × Value))

namespace Value

def get (v : Value) (key : String) : Option Value :=
  match v with
  | .object fields => fields.lookup key
  | _ => none

def field (v : Value) (key : String) : Value := (v.get key).getD .null

def item (v : Value) (i : ℕ) : Value :=
  match v with
  | .array items => items[i]?.getD .null
  | _ => .null

def asStr : Value → Option String
  | .string s => some s
  | _ => none

def asBool : Value → Option Bool
  | .bool b => some b
  | _ => none

def asArray : Value → Option (List Value)
  | .array items => some items
  | _ => none

def asU64 : Value → Option UInt64
  | .number (.posInt n) => some n
  | _ => none

def asI64 : Value → Option Int64
  | .number (.posInt n) => narrow Int64 (toInt n)
  | .number (.negInt n) => some n
  | _ => none

/-- `v[key] = x`, which turns `Null` into an object and panics on other values. -/
def setField (v : Value) (key : String) (x : Value) : Option Value :=
  match v with
  | .null => some (.object [(key,x)])
  | .object fields => some (.object ((key,x) :: fields.filter fun f => f.1 != key))
  | _ => none

@[simp] theorem get_nil (key : String) : (Value.object []).get key = none := rfl

@[simp] theorem get_cons (k : String) (v : Value) (fields : List (String × Value)) (key : String) :
    (Value.object ((k,v)::fields)).get key = if key = k then some v else (Value.object fields).get key := by
  by_cases h : key = k
  · simp [get,h]
  · have hb : (key == k) = false := beq_eq_false_iff_ne.mpr h
    simp only [get,List.lookup_cons,hb,if_neg h]

@[simp] theorem field_eq (v : Value) (key : String) : v.field key = (v.get key).getD .null := rfl

@[simp] theorem item_array (items : List Value) (i : ℕ) :
    (Value.array items).item i = items[i]?.getD .null := rfl

end Value
end SerdeJson
