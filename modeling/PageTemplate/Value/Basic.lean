import PageTemplate.Number.Basic
set_option autoImplicit false
/-!
The values that variables hold and expressions compute.

Besides plain data there are host values, of which nothing but a name is known, and the callables of
the expression language: its fixed functions, the namespaces that group them, and methods bound to a
text or a list. A bound method remembers the place that made it, since two of them are equal only when
they are one.
-/
namespace PageTemplate

/-- The fixed functions of the expression language. -/
inductive Builtin where
  | toText | toNumber | toBoolean
  | max | min | abs | floor | ceil | round | trunc | sign | sqrt | pow | random
  | stringify | parse | now | isArray
  | and | or | not | eq | neq | gt | lt | gte | lte
  deriving DecidableEq, Repr

def Builtin.name : Builtin → Text
  | .toText => text "String" | .toNumber => text "Number" | .toBoolean => text "Boolean"
  | .max => text "Math.max" | .min => text "Math.min" | .abs => text "Math.abs"
  | .floor => text "Math.floor" | .ceil => text "Math.ceil" | .round => text "Math.round"
  | .trunc => text "Math.trunc" | .sign => text "Math.sign" | .sqrt => text "Math.sqrt"
  | .pow => text "Math.pow" | .random => text "Math.random"
  | .stringify => text "JSON.stringify" | .parse => text "JSON.parse"
  | .now => text "Date.now" | .isArray => text "Array.isArray"
  | .and => text "and" | .or => text "or" | .not => text "not" | .eq => text "eq" | .neq => text "neq"
  | .gt => text "gt" | .lt => text "lt" | .gte => text "gte" | .lte => text "lte"

inductive Library where
  | math | json | date | array
  deriving DecidableEq, Repr

def Library.name : Library → Text
  | .math => text "Math" | .json => text "JSON" | .date => text "Date" | .array => text "Array"

inductive TextMethod where
  | toUpperCase | toLowerCase | trim | includes | startsWith | endsWith | indexOf | slice | split
  | replace
  deriving DecidableEq, Repr

def TextMethod.all : List TextMethod :=
  [.toUpperCase, .toLowerCase, .trim, .includes, .startsWith, .endsWith, .indexOf, .slice, .split,
    .replace]

def TextMethod.name : TextMethod → Text
  | .toUpperCase => text "toUpperCase" | .toLowerCase => text "toLowerCase" | .trim => text "trim"
  | .includes => text "includes" | .startsWith => text "startsWith" | .endsWith => text "endsWith"
  | .indexOf => text "indexOf" | .slice => text "slice" | .split => text "split"
  | .replace => text "replace"

inductive ListMethod where
  | includes | indexOf | join | slice
  deriving DecidableEq, Repr

def ListMethod.all : List ListMethod := [.includes, .indexOf, .join, .slice]

def ListMethod.name : ListMethod → Text
  | .includes => text "includes" | .indexOf => text "indexOf" | .join => text "join"
  | .slice => text "slice"

inductive Value where
  | null
  | bool (b : Bool)
  | number (n : Number)
  | str (t : Text)
  | list (items : List Value)
  | tuple (items : List Value)
  | map (entries : List (Value × Value))
  | host (id : Nat) (name : Text)
  | builtin (b : Builtin)
  | library (l : Library)
  | textMethod (m : TextMethod) (receiver : Text) (mark : Mark)
  | listMethod (m : ListMethod) (receiver : List Value) (mark : Mark)

instance : Inhabited Value := ⟨.null⟩

/-- Entries of a mapping in insertion order. -/
abbrev Entries := List (Value × Value)

namespace Value

def int (n : Int) : Value := .number (.whole n)

def nat (n : Nat) : Value := .int n

def typeName : Value → Text
  | .null => text "NoneType"
  | .bool _ => text "bool"
  | .number (.whole _) => text "int"
  | .number _ => text "float"
  | .str _ => text "str"
  | .list _ => text "list"
  | .tuple _ => text "tuple"
  | .map _ => text "dict"
  | .host _ _ => text "Opaque"
  | .builtin _ | .textMethod _ _ _ | .listMethod _ _ _ => text "SafeFunction"
  | .library _ => text "SafeNamespace"

/-- What conditions and logical operators take for true: everything but null, false, zero and what is
empty. -/
def truthy : Value → Bool
  | .null => false
  | .bool b => b
  | .number n => !n.isZero
  | .str t => !t.isEmpty
  | .list xs | .tuple xs => !xs.isEmpty
  | .map es => !es.isEmpty
  | _ => true

/-- Numbers and booleans, which count as 0 and 1. -/
def asNumber? : Value → Option Number
  | .bool b => some (.whole (if b then 1 else 0))
  | .number n => some n
  | _ => none

def isCallable : Value → Bool
  | .builtin _ | .textMethod _ _ _ | .listMethod _ _ _ => true
  | _ => false

mutual

/-- Equal, or the same object: the comparison of the members of containers. The order of entries does
not count. -/
def alike : Value → Value → Bool
  | .null, .null => true
  | .bool a, .bool b => a == b
  | .bool a, .number n | .number n, .bool a => n.equals (.whole (if a then 1 else 0))
  | .number m, .number n => m.alike n
  | .str s, .str t => s == t
  | .list xs, .list ys | .tuple xs, .tuple ys => allAlike xs ys
  | .map es, .map fs => es.length == fs.length && allIn es fs
  | .host i _, .host j _ => i == j
  | .builtin a, .builtin b => a == b
  | .library a, .library b => a == b
  | .textMethod m _ p, .textMethod n _ q => m == n && p == q
  | .listMethod m _ p, .listMethod n _ q => m == n && p == q
  | _, _ => false

def allAlike : List Value → List Value → Bool
  | [], [] => true
  | x :: xs, y :: ys => alike x y && allAlike xs ys
  | _, _ => false

def allIn : List (Value × Value) → List (Value × Value) → Bool
  | [], _ => true
  | (k, v) :: es, fs => (fs.any fun f => alike k f.1 && alike v f.2) && allIn es fs

end

/-- Equality. It differs from `alike` only on a NaN itself, which equals nothing. -/
def equals : Value → Value → Bool
  | .number m, .number n => m.equals n
  | a, b => alike a b

end Value

namespace Entries

/-- The value under a text key. -/
def get? (key : Text) : Entries → Option Value
  | [] => none
  | (.str k, v) :: es => if k = key then some v else get? key es
  | _ :: es => get? key es

/-- The value under a key that is alike. -/
def find? (key : Value) (es : Entries) : Option Value :=
  (List.find? (fun e => e.1.alike key) es).map (·.2)

/-- Sets the value of a key; an existing key keeps its place and its spelling. -/
def put (key value : Value) : Entries → Entries
  | [] => [(key, value)]
  | (k, v) :: es => if k.alike key then (k, value) :: es else (k, v) :: put key value es

def ofPairs (pairs : List (Value × Value)) : Entries :=
  pairs.foldl (fun es (k, v) => es.put k v) []

/-- The first entries overlaid with the second. -/
def overlay (base extra : Entries) : Entries := extra.foldl (fun es (k, v) => es.put k v) base

end Entries

end PageTemplate
