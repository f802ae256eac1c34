import ProbeLowering.Json.Tree
import ProbeLowering.NameMap

/-!
# Shapes of documents

Readers of typed values from JSON trees.  A record is an object whose unknown
members are ignored and whose known members occur at most once, or an array of
its leading fields in order.  A variant is its bare name, or an object whose
only member is named after it and holds its payload.
-/

namespace ProbeLowering.Json

def string? : Json → Option String
  | .string s => some s
  | _ => none

def bool? : Json → Option Bool
  | .bool b => some b
  | _ => none

def int64? : Json → Option Int
  | .int n =>
      if -0x8000000000000000 ≤ n ∧ n < 0x8000000000000000 then some n else none
  | _ => none

def list? {α : Type} (item? : Json → Option α) : Json → Option (List α)
  | .array items => items.mapM item?
  | _ => none

/-- Of several members under one name the last counts. -/
def map? {α : Type} (value? : Json → Option α) : Json → Option (NameMap α)
  | .object members =>
      (members.mapM fun (m : String × Json) => (value? m.2).map (m.1, ·)).map
        NameMap.ofList
  | _ => none

def ofMap {α : Type} (value : α → Json) (m : NameMap α) : Json :=
  .object (m.toList.map fun (name, x) => (name, value x))

/-- The member of an object under `name`, which must not be repeated. -/
def member? (members : List (String × Json)) (name : String) :
    Option (Option Json) :=
  match members.filter (·.1 == name) with
  | [] => some none
  | [(_, value)] => some (some value)
  | _ => none

def fields? (names : List String) : Json → Option (List (Option Json))
  | .object members => names.mapM (member? members)
  | .array items =>
      if items.length ≤ names.length then
        some ((items.map some) ++ List.replicate (names.length - items.length) none)
      else none
  | _ => none

def required? {α : Type} (value? : Json → Option α) (field : Option Json) :
    Option α :=
  field.bind value?

def default? {α : Type} (default : α) (value? : Json → Option α)
    (field : Option Json) : Option α :=
  match field with
  | none => some default
  | some value => value? value

/-- An absent field and `null` both mean that there is no value. -/
def optional? {α : Type} (value? : Json → Option α) (field : Option Json) :
    Option (Option α) :=
  match field with
  | none | some .null => some none
  | some value => (value? value).map some

def variant? : Json → Option (String × Option Json)
  | .string name => some (name, none)
  | .object [(name, payload)] => some (name, some payload)
  | _ => none

/-- A variant without payload; `null` counts as none. -/
def unitVariant? (tree : Json) : Option String :=
  match variant? tree with
  | some (name, none) | some (name, some .null) => some name
  | _ => none

def payload? (tree : Json) : Option (String × Json) :=
  match variant? tree with
  | some (name, some payload) => some (name, payload)
  | _ => none

def named? {α : Type} (names : List (α × String)) (tree : Json) : Option α :=
  (unitVariant? tree).bind fun name =>
    (names.find? (·.2 == name)).map Prod.fst

end ProbeLowering.Json
