import PageTemplate.Value.Display
import PageTemplate.Notice
set_option autoImplicit false
/-!
User functions under their names. What a function gives may depend on all calls made before, its own and those
of the others, so a registry keeps them. A registry that is made anew has none to remember.
-/
namespace PageTemplate

/-- Calls of functions, which are told by their numbers, with the arguments; oldest first. -/
abbrev CallHistory := List (Nat × List Value)

/-- How a call ended, and the faults met when the function asked for the text of a container. -/
structure CallOutcome where
  result : Except CallFailure Value
  reports : List Fault

namespace CallOutcome

def ok (v : Value) : CallOutcome := ⟨.ok v, []⟩

def fail (f : CallFailure) : CallOutcome := ⟨.error f, []⟩

/-- A text with the text of a value in the middle. -/
def wrapped (before : Text) (v : Value) (after : Text) : CallOutcome :=
  match v.display? with
  | .ok t => ok (.str (before ++ t ++ after))
  | .error f => if v.isContainer then ⟨.ok (.str (before ++ after)), [f]⟩ else fail (.raised f.name)

end CallOutcome

/-- What a registry may hold: a function of earlier calls and arguments, or a value that cannot be
called. A function is told from others by its number. -/
inductive Registered where
  | function (id : Nat) (run : CallHistory → List Value → CallOutcome)
  | plain (v : Value)

/-- The number of a function. -/
def Registered.id? : Registered → Option Nat
  | .function id _ => some id
  | .plain _ => none

def Registered.isNull : Registered → Bool
  | .plain .null => true
  | _ => false

/-- Calls what is registered after some calls. -/
def Registered.outcome (calls : CallHistory) (args : List Value) : Registered → CallOutcome
  | .function _ run => run calls args
  | .plain _ => .fail .wrongCall

/-- What stands under which name, in the order of registration, and the calls made so far. -/
structure Registry where
  items : List (Text × Registered)
  calls : CallHistory

namespace Registry

def empty : Registry := ⟨[], []⟩

def names (r : Registry) : List Text := r.items.map (·.1)

/-- Puts an item under a name; one that is already there is replaced at its place. -/
def put (name : Text) (item : Registered) : List (Text × Registered) → List (Text × Registered)
  | [] => [(name, item)]
  | i :: is => if i.1 = name then (name, item) :: is else i :: put name item is

def add (name : Text) (item : Registered) (r : Registry) : Registry := { r with items := put name item r.items }

def contains (name : Text) (r : Registry) : Bool := r.items.any (·.1 == name)

/-- The item under a name. Null stands for none. -/
def find? (name : Text) (r : Registry) : Option Registered := (r.items.lookup name).filter (!·.isNull)

/-- Remembers a call. -/
def record (item : Registered) (args : List Value) (r : Registry) : Registry :=
  { r with calls := r.calls ++ item.id?.toList.map (·, args) }

/-- Calls a function by name; nothing if there is none. -/
def call (name : Text) (args : List Value) (r : Registry) : Option (CallOutcome × Registry) :=
  (r.find? name).map fun item => (item.outcome r.calls args, r.record item args)

end Registry

end PageTemplate
