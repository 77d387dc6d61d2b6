import PageTemplate.Text.Basic
set_option autoImplicit false
/-!
Looking for one text inside another. `cut?` splits at the first occurrence; everything else here is
said through it.
-/
namespace PageTemplate

/-- What precedes and what follows the first occurrence of a text. -/
def cut? (needle : Text) : Text → Option (Text × Text)
  | [] => if needle.isEmpty then some ([], []) else none
  | c :: cs =>
    match after? needle (c :: cs) with
    | some rest => some ([], rest)
    | none => (cut? needle cs).map fun (before, rest) => (c :: before, rest)

/-- The least position at which the text occurs. -/
def indexOf? (needle hay : Text) : Option Nat := (cut? needle hay).map (·.1.length)

def occursIn (needle hay : Text) : Bool := (cut? needle hay).isSome

theorem cut?_length {needle hay before rest : Text} (h : cut? needle hay = some (before, rest)) :
    hay.length = before.length + needle.length + rest.length := by
  induction hay generalizing before with
  | nil =>
    unfold cut? at h
    split at h
    · next he => simp_all
    · simp at h
  | cons c cs ih =>
    unfold cut? at h
    split at h
    · next r hr =>
      simp only [Option.some.injEq, Prod.mk.injEq] at h
      obtain ⟨rfl, rfl⟩ := h
      have hl := congrArg List.length (after?_eq_some_iff.1 hr)
      simp only [List.length_append] at hl
      simp [hl]
    · obtain ⟨⟨b, r⟩, hb, he⟩ := Option.map_eq_some_iff.1 h
      simp only [Prod.mk.injEq] at he
      obtain ⟨rfl, rfl⟩ := he
      have := ih hb
      simp only [List.length_cons]
      omega

/-- The pieces of a text between the occurrences of a separator, met from the left without overlap.
An empty separator separates nothing. -/
def splitAt (separator hay : Text) : List Text :=
  match _h : cut? separator hay with
  | none => [hay]
  | some (before, rest) =>
    if 0 < separator.length then before :: splitAt separator rest else [hay]
termination_by hay.length
decreasing_by have := cut?_length _h; omega

/-- The text with the first occurrence of `old` replaced. -/
def replaceFirst (old new hay : Text) : Text :=
  match cut? old hay with
  | some (before, rest) => before ++ new ++ rest
  | none => hay

/-- Texts in order with a separator between neighbours. -/
def joinWith (separator : Text) : List Text → Text
  | [] => []
  | [t] => t
  | t :: u :: ts => t ++ separator ++ joinWith separator (u :: ts)

def endsWith (tail t : Text) : Bool := (after? tail.reverse t.reverse).isSome

end PageTemplate
