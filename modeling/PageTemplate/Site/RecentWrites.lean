import PageTemplate.Site.Path
set_option autoImplicit false
/-!
The record of recent writes. A write is recent until it is older than the time to live, and the latest
write of a place counts. Looking drops what is out of date. Nothing is known of a path that leads nowhere.
-/
namespace PageTemplate

structure RecentWrites (τ : Type) where
  timeToLive : τ
  entries : List (Location × τ)

namespace RecentWrites

def start {τ : Type} (timeToLive : τ) : RecentWrites τ := ⟨timeToLive, []⟩

/-- Writes a place at a time. -/
def record {τ : Type} (l : Location) (now : τ) (r : RecentWrites τ) : RecentWrites τ :=
  { r with entries := r.entries.filter (·.1 != l) ++ [(l, now)] }

/-- Writes the place of a path. -/
def recordPath? {τ : Type} (path : Path) (now : τ) (r : RecentWrites τ) : Option (RecentWrites τ) :=
  path.location?.map fun l => r.record l now

def clear {τ : Type} (r : RecentWrites τ) : RecentWrites τ := { r with entries := [] }

variable {τ : Type} [Sub τ] [LT τ] [DecidableLT τ]

/-- Drops what is out of date. -/
def prune (now : τ) (r : RecentWrites τ) : RecentWrites τ :=
  { r with entries := r.entries.filter fun e => !decide (e.2 < now - r.timeToLive) }

/-- Was the place written recently? -/
def contains (l : Location) (now : τ) (r : RecentWrites τ) : Bool × RecentWrites τ :=
  let r := r.prune now
  (r.entries.any (·.1 == l), r)

/-- Was the place of a path written recently? -/
def containsPath? (path : Path) (now : τ) (r : RecentWrites τ) : Option Bool × RecentWrites τ :=
  match path.location? with
  | some l =>
    let (found, r) := r.contains l now
    (some found, r)
  | none => (none, r.prune now)

/-- How many places were written recently. -/
def count (now : τ) (r : RecentWrites τ) : Nat × RecentWrites τ :=
  let r := r.prune now
  (r.entries.length, r)

end RecentWrites

end PageTemplate
