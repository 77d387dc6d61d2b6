import PageTemplate.Proofs.Pruning
set_option autoImplicit false
/-!
The conditionals of a laid-out page. A pass evaluates the conditions of each outermost conditional up to the
first that holds, and puts the branch chosen in place of the conditional; while such a branch looks as if it held
another conditional, the page that is left is gone through again.
-/
namespace PageTemplate

deriving instance DecidableEq for BranchTag

mutual

/-- The pieces of a page for the search for conditionals. To it a loop is text like any other. -/
def Layout.branchPieces : Layout → List (Piece BranchTag)
  | .done => []
  | .text t rest => Piece.chars t ++ rest.branchPieces
  | .choice tag condition yes others rest =>
    .tag (.ifTag condition) tag :: (yes.branchPieces ++ (others.branchPieces ++ rest.branchPieces))
  | .loop tag _ _ body ending rest => Piece.chars (tag ++ (body.print ++ ending.print)) ++ rest.branchPieces

def Layout.Others.branchPieces : Layout.Others → List (Piece BranchTag)
  | .close tag => [.tag .endTag tag]
  | .branch tag condition body others =>
    .tag (condition.elim .elseTag .elseIf) tag :: (body.branchPieces ++ others.branchPieces)

end

namespace Conditional

theorem enclose_chars (t : Text) (d : Nat) (ps : List (Piece BranchTag)) :
    enclose d (Piece.chars t ++ ps) = (enclose d ps).map (·.push t) :=
  collector.enclose_chars t d ps

end Conditional

mutual

/-- An enclosing conditional takes a whole page into its branch. -/
theorem Layout.enclose_branchPieces (p : Layout) (d : Nat) (ps : List (Piece BranchTag)) :
    Conditional.enclose d (p.branchPieces ++ ps) = (Conditional.enclose d ps).map (·.push p.print) := by
  cases p with
  | done => exact Conditional.enclose_chars [] d ps
  | text t rest =>
    simp only [Layout.branchPieces, Layout.print, List.append_assoc, Conditional.enclose_chars,
      rest.enclose_branchPieces, Conditional.collector.map_push_push]
  | choice tag condition yes others rest =>
    simp only [Layout.branchPieces, Layout.print, List.append_assoc, List.cons_append, Conditional.enclose,
      yes.enclose_branchPieces, others.enclose_branchPieces, rest.enclose_branchPieces, Conditional.collector.map_push_push]
  | loop tag names collection body ending rest =>
    simp only [Layout.branchPieces, Layout.print, List.append_assoc, Conditional.enclose_chars,
      rest.enclose_branchPieces, Conditional.collector.map_push_push]

theorem Layout.Others.enclose_branchPieces (o : Layout.Others) (d : Nat) (ps : List (Piece BranchTag)) :
    Conditional.enclose (d + 1) (o.branchPieces ++ ps) = (Conditional.enclose d ps).map (·.push o.print) := by
  cases o with
  | close tag =>
    simp only [Layout.Others.branchPieces, Layout.Others.print, List.singleton_append, Conditional.enclose]
  | branch tag condition body others =>
    cases condition <;>
      simp only [Layout.Others.branchPieces, Layout.Others.print, List.cons_append, List.append_assoc, Option.elim,
        Conditional.enclose, body.enclose_branchPieces, others.enclose_branchPieces, Nat.succ_ne_zero, if_false,
        Conditional.collector.map_push_push]

end

namespace Layout.Others

def listed : Layout.Others → List Branch
  | .close _ => []
  | .branch _ condition body others => ⟨condition, body.print⟩ :: others.listed

def pick (ctx : RenderContext) : Layout.Others → Layout
  | .close _ => .done
  | .branch _ condition body others => if Conditional.applies ctx condition then body else others.pick ctx

/-- Evaluates the conditions up to the first that holds. -/
def weigh (ctx : RenderContext) : Layout.Others → Render Unit
  | .close _ => pure ()
  | .branch _ none _ _ => pure ()
  | .branch _ (some c) _ others => do
    let _ ← Render.valueOf ctx c
    if Conditional.applies ctx c then pure () else others.weigh ctx

theorem enclose_zero (o : Layout.Others) (ps : List (Piece BranchTag)) :
    Conditional.enclose 0 (o.branchPieces ++ ps) = some ⟨[], o.listed, ps⟩ := by
  cases o with
  | close tag => rw [branchPieces, List.singleton_append, Conditional.enclose, listed]
  | branch tag condition body others =>
    cases condition <;>
      simp [branchPieces, Conditional.enclose, body.enclose_branchPieces, others.enclose_zero, listed,
        Conditional.Enclosed.push, Conditional.Enclosed.branch]

end Layout.Others

namespace Layout

variable (ctx : RenderContext)

/-- Evaluates the conditions of the outermost conditionals, as far as they decide. -/
def weigh : Layout → Render Unit
  | .done => pure ()
  | .text _ rest | .loop _ _ _ _ _ rest => rest.weigh
  | .choice tag condition yes others rest => do
    (Others.branch tag (some condition) yes others).weigh ctx
    rest.weigh

/-- The page with every outermost conditional replaced by the branch that it chooses. -/
def step : Layout → Layout
  | .done => .done
  | .text t rest => .text t rest.step
  | .choice tag condition yes others rest =>
    ((Others.branch tag (some condition) yes others).pick ctx).append rest.step
  | .loop tag names collection body ending rest => .loop tag names collection body ending rest.step

/-- Does a conditional look as if it chose a branch with another one? -/
def nested : Layout → Bool
  | .done => false
  | .text _ rest | .loop _ _ _ _ _ rest => rest.nested
  | .choice tag condition yes others rest =>
    Conditional.holdsConditional ((Others.branch tag (some condition) yes others).pick ctx).print || rest.nested

/-- The page with its conditionals resolved, in at most so many passes. -/
def settle : Nat → Layout → Render Text
  | 0, p => pure p.print
  | n + 1, p => do
    p.weigh ctx
    if p.nested ctx then (p.step ctx).settle n else pure (p.step ctx).print

/-- In each of so many passes, the tags of conditionals that are found in the text are those of the page. -/
def Legible : Nat → Layout → Prop
  | 0, _ => True
  | n + 1, p => Piece.scan BranchTag.read p.print = p.branchPieces ∧ (p.nested ctx → (p.step ctx).Legible n)

def decidableLegible : (n : Nat) → (p : Layout) → Decidable (p.Legible ctx n)
  | 0, _ => .isTrue trivial
  | n + 1, p =>
    have := (p.step ctx).decidableLegible n
    inferInstanceAs (Decidable (_ ∧ _))

instance (n : Nat) (p : Layout) : Decidable (p.Legible ctx n) := p.decidableLegible ctx n

theorem Others.choose_listed (o : Others) :
    Conditional.choose ctx o.listed = o.weigh ctx >>= fun _ => pure (o.pick ctx).print := by
  cases o with
  | close tag => rfl
  | branch tag condition body others =>
    cases condition with
    | none => rfl
    | some c =>
      rw [listed, Conditional.choose]
      dsimp only
      rw [(Render.gives_valueOf ctx c).bind_eq]
      by_cases h : (Render.valueAt ctx c).truthy
      · simp [weigh, pick, Conditional.applies, h]
      · simp [weigh, pick, Conditional.applies, h, others.choose_listed]

theorem parts_choice (tag condition : Text) (yes : Layout) (others : Others) (ps : List (Piece BranchTag)) :
    Conditional.parts (.tag (.ifTag condition) tag :: (yes.branchPieces ++ (others.branchPieces ++ ps))) =
      .choice (Others.branch tag (some condition) yes others).listed :: Conditional.parts ps := by
  have henclose : Conditional.enclose 0 (yes.branchPieces ++ (others.branchPieces ++ ps)) =
      some ⟨yes.print, others.listed, ps⟩ := by
    rw [yes.enclose_branchPieces, others.enclose_zero]
    simp [Conditional.Enclosed.push]
  exact Conditional.parts_enclosed condition tag henclose

theorem resolve_chars (t : Text) (ps : List (Piece BranchTag)) :
    Conditional.resolve ctx (Conditional.parts (Piece.chars t ++ ps)) =
      Conditional.resolve ctx (Conditional.parts ps) >>= fun r => pure (t ++ r.1, r.2) := by
  induction t with
  | nil => simp
  | cons c t ih => simp [Conditional.parts, Conditional.resolve, ih]

/-- A pass over a page, whatever stands behind it. -/
theorem resolve_branchPieces (p : Layout) (ps : List (Piece BranchTag)) :
    Conditional.resolve ctx (Conditional.parts (p.branchPieces ++ ps)) =
      p.weigh ctx >>= fun _ => Conditional.resolve ctx (Conditional.parts ps) >>= fun r =>
        pure ((p.step ctx).print ++ r.1, p.nested ctx || r.2) := by
  cases p with
  | done => simp [branchPieces, weigh, step, nested, print]
  | text t rest =>
    simp only [branchPieces, List.append_assoc, resolve_chars, rest.resolve_branchPieces, weigh, step, nested, print,
      bind_assoc, pure_bind]
  | choice tag condition yes others rest =>
    simp only [branchPieces, List.append_assoc, List.cons_append, parts_choice, Conditional.resolve,
      Others.choose_listed, rest.resolve_branchPieces, weigh, step, nested, print_append, bind_assoc, pure_bind,
      Bool.or_assoc]
  | loop tag names collection body ending rest =>
    simp only [branchPieces, List.append_assoc, resolve_chars, rest.resolve_branchPieces, weigh, step, nested, print,
      bind_assoc, pure_bind]

theorem pass_print {p : Layout} (h : Piece.scan BranchTag.read p.print = p.branchPieces) :
    Conditional.pass ctx p.print = p.weigh ctx >>= fun _ => pure ((p.step ctx).print, p.nested ctx) := by
  have hpieces := p.resolve_branchPieces ctx []
  rw [List.append_nil] at hpieces
  rw [Conditional.pass, h, hpieces]
  simp [Conditional.parts, Conditional.resolve]

theorem passes_print (n : Nat) {p : Layout} (h : p.Legible ctx n) :
    Conditional.passes ctx n p.print = p.settle ctx n := by
  induction n generalizing p with
  | zero => rfl
  | succ n ih =>
    rw [Conditional.passes, pass_print ctx h.1, settle, bind_assoc]
    simp only [pure_bind]
    cases hn : p.nested ctx with
    | false => rfl
    | true => simp only [if_true, ih (h.2 hn)]

end Layout

end PageTemplate
