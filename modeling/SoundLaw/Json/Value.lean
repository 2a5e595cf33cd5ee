import SoundLaw.Binary64

/-!
# JSON values

Inventories are stored as JSON documents, the class table of the settings is JSON text, and log
records are JSON objects, so the library has its own JSON values. Numbers keep the distinction
the documents make between integers and numbers written with a fraction or an exponent, the
latter being binary64 values. An object keeps its members in the order they first appear, each
name once.

* `Json` — the values;
* `Json.get?`, `Json.set` — a member of an object by name, and replacing or adding one;
* `Json.overlay` — one value laid over another, objects merged member by member;
* `Json.typeName` — the kind of a value, as messages name it.
-/

namespace SoundLaw

/-- A JSON value. -/
inductive Json where
  | null
  | bool (b : Bool)
  /-- A number written without fraction or exponent. -/
  | int (n : Int)
  /-- A number written with a fraction or an exponent, or `NaN`, `Infinity` or `-Infinity`. -/
  | real (x : Binary64)
  | str (s : String)
  | arr (items : List Json)
  /-- An object: its members in order, each name once. -/
  | obj (fields : List (String × Json))
  deriving Inhabited

namespace Json

/-- The value of a member of an object. -/
def get? (j : Json) (name : String) : Option Json :=
  match j with
  | .obj fields => fields.lookup name
  | _ => none

/-- Replaces the value of a member in place, or adds the member at the end. -/
def setField (name : String) (v : Json) : List (String × Json) → List (String × Json)
  | [] => [(name, v)]
  | (k, w) :: rest => if k = name then (k, v) :: rest else (k, w) :: setField name v rest

/-- The object with the member `name` set to `v`; other values are left as they are. -/
def set (j : Json) (name : String) (v : Json) : Json :=
  match j with
  | .obj fields => .obj (setField name v fields)
  | other => other

mutual
/-- `top` laid over `base`: when both are objects, each member of `top` replaces the member of
`base` of the same name in place (or comes after its members), except that two objects under one
name are laid over each other the same way; otherwise `top` itself. -/
def overlay (base : Json) : Json → Json
  | .obj fields =>
    match base with
    | .obj under => .obj (overlayFields under fields)
    | _ => .obj fields
  | top => top

/-- The members `fields` laid over the members `under`, one after the other. -/
def overlayFields (under : List (String × Json)) : List (String × Json) → List (String × Json)
  | [] => under
  | (k, v) :: rest =>
    let merged := match under.lookup k with
      | some old => overlay old v
      | none => v
    overlayFields (setField k merged under) rest
end

/-- The kind of a value as messages name it. -/
def typeName : Json → String
  | .null => "NoneType"
  | .bool _ => "bool"
  | .int _ => "int"
  | .real .. => "float"
  | .str _ => "str"
  | .arr _ => "list"
  | .obj _ => "dict"

end Json

end SoundLaw
