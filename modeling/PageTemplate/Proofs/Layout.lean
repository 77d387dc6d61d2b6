import PageTemplate.Proofs.Choice
import PageTemplate.Proofs.Composition
set_option autoImplicit false
/-!
Pages laid out as trees of their loops and conditionals, with any texts between the tags and any spelling of the
tags. A layout is what the search for loops finds in a text if the two cut the text into the same pieces; then
each loop of the layout is replaced by its expansion, those in branches of conditionals included.
-/
namespace PageTemplate

deriving instance DecidableEq for LoopTag, Piece

mutual

inductive Layout where
  | done
  | text (t : Text) (rest : Layout)
  | choice (tag condition : Text) (yes : Layout) (others : Layout.Others) (rest : Layout)
  | loop (tag : Text) (names : List Text) (collection : Text) (body : Layout) (ending : Layout.Ending)
    (rest : Layout)

/-- What follows the first branch of a conditional: further branches, under a condition or without one. -/
inductive Layout.Others where
  | close (tag : Text)
  | branch (tag : Text) (condition : Option Text) (body : Layout) (others : Layout.Others)

/-- What follows the body of a loop. -/
inductive Layout.Ending where
  | close (tag : Text)
  | ifEmpty (tag : Text) (part : Layout) (endTag : Text)

end

mutual

def Layout.print : Layout → Text
  | .done => []
  | .text t rest => t ++ rest.print
  | .choice tag _ yes others rest => tag ++ (yes.print ++ (others.print ++ rest.print))
  | .loop tag _ _ body ending rest => tag ++ (body.print ++ (ending.print ++ rest.print))

def Layout.Others.print : Layout.Others → Text
  | .close tag => tag
  | .branch tag _ body others => tag ++ (body.print ++ others.print)

def Layout.Ending.print : Layout.Ending → Text
  | .close tag => tag
  | .ifEmpty tag part endTag => tag ++ (part.print ++ endTag)

end

/-- The part for an empty collection, behind its tag. -/
def Layout.Ending.part? : Layout.Ending → Option (Text × Text)
  | .close _ => none
  | .ifEmpty tag part _ => some (tag, part.print)

def Layout.Ending.toLoop (names : List Text) (collection : Text) (body : Layout) (ending : Layout.Ending) : Loop :=
  ⟨names, collection, body.print, ending.part?.map (·.2)⟩

mutual

/-- The pieces of a page for the search for loops. -/
def Layout.loopPieces : Layout → List (Piece LoopTag)
  | .done => []
  | .text t rest => Piece.chars t ++ rest.loopPieces
  | .choice tag _ yes others rest =>
    Piece.chars tag ++ (yes.loopPieces ++ (others.loopPieces ++ rest.loopPieces))
  | .loop tag names collection body ending rest =>
    .tag (.opener names collection) tag :: (body.loopPieces ++ (ending.loopPieces ++ rest.loopPieces))

def Layout.Others.loopPieces : Layout.Others → List (Piece LoopTag)
  | .close tag => Piece.chars tag
  | .branch tag _ body others => Piece.chars tag ++ (body.loopPieces ++ others.loopPieces)

def Layout.Ending.loopPieces : Layout.Ending → List (Piece LoopTag)
  | .close tag => [.tag .closer tag]
  | .ifEmpty tag part endTag => .tag .alternative tag :: (part.loopPieces ++ [.tag .closer endTag])

end

mutual

/-- The page with its loops expanded, from the first to the last. -/
def Layout.expand (render : Renderer) (ctx : RenderContext) : Layout → Render Layout
  | .done => pure .done
  | .text t rest => do return .text t (← rest.expand render ctx)
  | .choice tag condition yes others rest => do
    let yes' ← yes.expand render ctx
    let others' ← others.expand render ctx
    return .choice tag condition yes' others' (← rest.expand render ctx)
  | .loop _ names collection body ending rest => do
    let t ← Loop.expand render ctx (ending.toLoop names collection body)
    return .text t (← rest.expand render ctx)

def Layout.Others.expand (render : Renderer) (ctx : RenderContext) :
    Layout.Others → Render Layout.Others
  | .close tag => pure (.close tag)
  | .branch tag condition body others => do
    let body' ← body.expand render ctx
    return .branch tag condition body' (← others.expand render ctx)

end

namespace Loop

theorem enclose_chars (t : Text) (d : Nat) (ps : List (Piece LoopTag)) :
    enclose d (Piece.chars t ++ ps) = (enclose d ps).map (·.push t) :=
  collector.enclose_chars t d ps

end Loop

mutual

/-- An enclosing loop takes a whole page for its body. -/
theorem Layout.enclose_loopPieces (p : Layout) (d : Nat) (ps : List (Piece LoopTag)) :
    Loop.enclose d (p.loopPieces ++ ps) = (Loop.enclose d ps).map (·.push p.print) := by
  cases p with
  | done => exact Loop.enclose_chars [] d ps
  | text t rest =>
    simp only [Layout.loopPieces, Layout.print, List.append_assoc, Loop.enclose_chars, rest.enclose_loopPieces,
      Loop.collector.map_push_push]
  | choice tag condition yes others rest =>
    simp only [Layout.loopPieces, Layout.print, List.append_assoc, Loop.enclose_chars, yes.enclose_loopPieces,
      others.enclose_loopPieces, rest.enclose_loopPieces, Loop.collector.map_push_push]
  | loop tag names collection body ending rest =>
    simp only [Layout.loopPieces, Layout.print, List.append_assoc, List.cons_append, Loop.enclose,
      body.enclose_loopPieces, ending.enclose_loopPieces, rest.enclose_loopPieces, Loop.collector.map_push_push]

theorem Layout.Others.enclose_loopPieces (o : Layout.Others) (d : Nat) (ps : List (Piece LoopTag)) :
    Loop.enclose d (o.loopPieces ++ ps) = (Loop.enclose d ps).map (·.push o.print) := by
  cases o with
  | close tag => simp only [Layout.Others.loopPieces, Layout.Others.print, Loop.enclose_chars]
  | branch tag condition body others =>
    simp only [Layout.Others.loopPieces, Layout.Others.print, List.append_assoc, Loop.enclose_chars,
      body.enclose_loopPieces, others.enclose_loopPieces, Loop.collector.map_push_push]

theorem Layout.Ending.enclose_loopPieces (e : Layout.Ending) (d : Nat) (ps : List (Piece LoopTag)) :
    Loop.enclose (d + 1) (e.loopPieces ++ ps) = (Loop.enclose d ps).map (·.push e.print) := by
  cases e with
  | close tag => simp only [Layout.Ending.loopPieces, Layout.Ending.print, List.singleton_append, Loop.enclose]
  | ifEmpty tag part endTag =>
    simp only [Layout.Ending.loopPieces, Layout.Ending.print, List.cons_append, List.nil_append, List.append_assoc,
      Loop.enclose, part.enclose_loopPieces, Nat.succ_ne_zero, if_false, Loop.collector.map_push_push]

end

theorem Layout.Ending.enclose_zero (e : Layout.Ending) (ps : List (Piece LoopTag)) :
    Loop.enclose 0 (e.loopPieces ++ ps) = some ⟨[], e.part?, ps⟩ := by
  cases e with
  | close tag => rw [loopPieces, List.singleton_append, Loop.enclose, part?]
  | ifEmpty tag part endTag =>
    rw [loopPieces, List.cons_append, Loop.enclose, List.append_assoc, part.enclose_loopPieces,
      List.singleton_append, Loop.enclose, part?]
    simp [Loop.Enclosed.push, Loop.Enclosed.split]

theorem Layout.parts_loop (tag : Text) (names : List Text) (collection : Text) (body : Layout)
    (ending : Layout.Ending) (ps : List (Piece LoopTag)) :
    Loop.parts (.tag (.opener names collection) tag :: (body.loopPieces ++ (ending.loopPieces ++ ps))) =
      .loop (ending.toLoop names collection body) :: Loop.parts ps := by
  have henclose : Loop.enclose 0 (body.loopPieces ++ (ending.loopPieces ++ ps)) =
      some ⟨body.print, ending.part?, ps⟩ := by
    rw [body.enclose_loopPieces, ending.enclose_zero]
    simp [Loop.Enclosed.push]
  exact Loop.parts_enclosed names collection tag henclose

section Expanding

variable (render : Renderer) (ctx : RenderContext)

theorem Loop.expandParts_chars (t : Text) (ps : List (Piece LoopTag)) :
    expandParts render ctx (parts (Piece.chars t ++ ps)) =
      expandParts render ctx (parts ps) >>= fun r => pure (t ++ r) := by
  induction t with
  | nil => simp
  | cons c t ih => simp [parts, expandParts, ih]

mutual

theorem Layout.expandParts_loopPieces (p : Layout) (ps : List (Piece LoopTag)) :
    Loop.expandParts render ctx (Loop.parts (p.loopPieces ++ ps)) =
      p.expand render ctx >>= fun x => Loop.expandParts render ctx (Loop.parts ps) >>= fun r =>
        pure (x.print ++ r) := by
  cases p with
  | done => simp [loopPieces, expand, print]
  | text t rest =>
    simp only [loopPieces, List.append_assoc, Loop.expandParts_chars, rest.expandParts_loopPieces, expand, bind_assoc,
      pure_bind, print]
  | choice tag condition yes others rest =>
    simp only [loopPieces, List.append_assoc, Loop.expandParts_chars, yes.expandParts_loopPieces,
      others.expandParts_loopPieces, rest.expandParts_loopPieces, expand, bind_assoc, pure_bind, print]
  | loop tag names collection body ending rest =>
    simp only [loopPieces, List.append_assoc, List.cons_append, Layout.parts_loop, Loop.expandParts,
      rest.expandParts_loopPieces, expand, bind_assoc, pure_bind, print]

theorem Layout.Others.expandParts_loopPieces (o : Layout.Others) (ps : List (Piece LoopTag)) :
    Loop.expandParts render ctx (Loop.parts (o.loopPieces ++ ps)) =
      o.expand render ctx >>= fun x => Loop.expandParts render ctx (Loop.parts ps) >>= fun r =>
        pure (x.print ++ r) := by
  cases o with
  | close tag =>
    simp only [Layout.Others.loopPieces, Loop.expandParts_chars, Layout.Others.expand, pure_bind, Layout.Others.print]
  | branch tag condition body others =>
    simp only [Layout.Others.loopPieces, List.append_assoc, Loop.expandParts_chars, body.expandParts_loopPieces,
      others.expandParts_loopPieces, Layout.Others.expand, bind_assoc, pure_bind, Layout.Others.print]

end

/-- The text has the loops of the layout. -/
def Layout.Loops (p : Layout) : Prop := Piece.scan LoopTag.read p.print = p.loopPieces

instance (p : Layout) : Decidable p.Loops := inferInstanceAs (Decidable (_ = _))

theorem Layout.expandLoops_print {p : Layout} (h : p.Loops) :
    expandLoops render ctx p.print = p.expand render ctx >>= fun x => pure x.print := by
  have hparts := p.expandParts_loopPieces render ctx []
  rw [List.append_nil] at hparts
  rw [expandLoops, h, hparts]
  simp [Loop.parts, Loop.expandParts]

end Expanding

end PageTemplate
