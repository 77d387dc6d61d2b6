import PageTemplate.Value.Basic
set_option autoImplicit false
/-!
Merging of nested mappings. Where both sides have a mapping, their entries are merged; everywhere else the
second side wins. Keys keep the order of the first side, and new ones follow.
-/
namespace PageTemplate.Config

mutual

/-- What stands under a key once a value is laid over what stood there. -/
def mergeValue (base : Option Value) : Value → Value
  | .map fs =>
    match base with
    | some (.map es) => .map (mergeEntries es fs)
    | _ => .map fs
  | v => v

/-- Entries laid over a mapping. -/
def mergeEntries (base : Entries) : List (Value × Value) → Entries
  | [] => base
  | (k, v) :: fs => mergeEntries (base.put k (mergeValue (base.find? k) v)) fs

end

/-- Both mappings as one, in which the second wins. -/
def deepMerge (base extra : Entries) : Entries := mergeEntries base extra

end PageTemplate.Config
