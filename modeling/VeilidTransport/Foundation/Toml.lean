import Mathlib.Data.List.SplitBy

/-!
# TOML documents

The tree a TOML text is parsed to, and what it has under a path of table keys
(`Value.resolve`).  A path leads nowhere where a key is missing, and where what it has
come to is not a table.
-/

namespace Toml

inductive Value where
  | string (s : String)
  | integer (i : Int)
  /-- A float, as it is written. -/
  | float (literal : String)
  | boolean (b : Bool)
  | datetime (literal : String)
  | array (vs : List Value)
  | table (entries : List (String × Value))

/-- The parts of a dotted key. -/
def parts (key : String) : List String := (key.toList.splitOn '.').map String.ofList

namespace Value

/-- The value of a table under a key. -/
def get : Value → String → Option Value
  | table entries, key => entries.lookup key
  | _, _ => none

def asStr : Value → Option String
  | string s => some s
  | _ => none

def asInteger : Value → Option Int
  | integer i => some i
  | _ => none

def asBool : Value → Option Bool
  | boolean b => some b
  | _ => none

def asArray : Value → Option (List Value)
  | array vs => some vs
  | _ => none

theorem asInteger_eq_some {v : Value} {i : Int} : v.asInteger = some i ↔ v = integer i := by
  cases v <;> simp [asInteger]

theorem asArray_eq_some {v : Value} {vs : List Value} : v.asArray = some vs ↔ v = array vs := by
  cases v <;> simp [asArray]

/-- What a document has under a path. -/
def resolve (v : Value) : List String → Option Value
  | [] => some v
  | part :: path => (v.get part).bind fun w => resolve w path

@[simp] theorem resolve_nil (v : Value) : v.resolve [] = some v := rfl

theorem resolve_cons (v : Value) (part : String) (path : List String) :
    v.resolve (part :: path) = (v.get part).bind fun w => w.resolve path := rfl

/-- **A path is followed part after part.** -/
theorem resolve_append (v : Value) (path rest : List String) :
    v.resolve (path ++ rest) = (v.resolve path).bind fun w => w.resolve rest := by
  induction path generalizing v with
  | nil => rfl
  | cons part path ih =>
    rw [List.cons_append, resolve_cons, resolve_cons]
    cases v.get part with
    | none => rfl
    | some w => exact ih w

/-- The last part of a path. -/
theorem resolve_concat (v : Value) (path : List String) (last : String) :
    v.resolve (path ++ [last]) = (v.resolve path).bind fun w => w.get last := by
  rw [resolve_append]
  cases v.resolve path with
  | none => rfl
  | some w => simp [resolve]

end Value
end Toml
