import Mathlib.Algebra.Group.Int.Defs
import Mathlib.Algebra.Group.Nat.Defs
import Mathlib.Data.List.Basic

/-! JSON values as the Python code sees them after `json.loads`. A number is
`mantissa * 10 ^ (-exponent)`, which covers integers and decimal fractions. -/
namespace WittyService

inductive Json where
  | null
  | bool (b : Bool)
  | num (mantissa : Int) (exponent : Nat)
  | str (s : String)
  | arr (items : List Json)
  | obj (fields : List (String × Json))
  deriving Repr

/-- A Python `dict` with string keys, in insertion order. -/
abbrev Dict := List (String × Json)

/-- `payload.get(key)`, the last binding of a key counting. -/
def Dict.get (d : Dict) (key : String) : Option Json :=
  (d.reverse.find? (fun kv => kv.1 == key)).map Prod.snd

def Dict.getD (d : Dict) (key : String) (default : Json) : Json :=
  (d.get key).getD default

def Dict.set (d : Dict) (key : String) (value : Json) : Dict :=
  if d.any fun kv => kv.1 == key then
    d.map fun kv => if kv.1 == key then (key, value) else kv
  else d ++ [(key, value)]

def Dict.pop (d : Dict) (key : String) : Dict := d.filter fun kv => kv.1 != key

def Json.truthy : Json → Bool
  | .null => false
  | .bool b => b
  | .num m _ => m != 0
  | .str s => s != ""
  | .arr items => !items.isEmpty
  | .obj fields => !fields.isEmpty

def Json.nonemptyStr : Json → Option String
  | .str s => if s = "" then none else some s
  | _ => none

def Json.asDict : Json → Dict
  | .obj fields => fields
  | _ => []

/-- `str.isspace` of one character. -/
def pyIsSpace (c : Char) : Bool :=
  c.val ∈ [0x09, 0x0a, 0x0b, 0x0c, 0x0d, 0x1c, 0x1d, 0x1e, 0x1f, 0x20, 0x85, 0xa0,
    0x1680, 0x2000, 0x2001, 0x2002, 0x2003, 0x2004, 0x2005, 0x2006, 0x2007, 0x2008,
    0x2009, 0x200a, 0x2028, 0x2029, 0x202f, 0x205f, 0x3000]

/-- `text.strip()`, as the list of its characters. -/
def pyStrip (text : String) : List Char :=
  ((text.toList.dropWhile pyIsSpace).reverse.dropWhile pyIsSpace).reverse

end WittyService
