import PageTemplate.Proofs.Action
import PageTemplate.Proofs.History
import PageTemplate.Proofs.Succession
set_option autoImplicit false
/-!
What an engine remembers after any operations on its context. Each piece of the state is what the latest
operation on it says, whatever the operations on the others were.
-/
namespace PageTemplate

/-- A site without customisations, whose context is worked on, and the sets of included files handed out. -/
structure Session where
  site : Site
  taken : List (List Text)

namespace Session

def start (tree : FileTree) (timeToLive now : Number) : Session :=
  ⟨⟨tree, none, .start timeToLive, now, []⟩, []⟩

/-- An operation. A value turns the compilation mode on or off. -/
inductive Operation where
  | mode (v : Value)
  | record (file : Text)
  | replace (f : Features)
  | reload (create : Bool)
  | reset
  | write (path : Path) (now : Number)
  | take
  | change (i : Nat) (files : List Text)

variable (s : Session)

def onContext (f : EngineContext → EngineContext) : Session :=
  { s with site := { s.site with context := f s.site.context } }

def perform : Operation → Session
  | .mode v => s.onContext (·.setCompiling v.truthy)
  | .record file => s.onContext (·.recordIncluded file)
  | .replace f => s.onContext (·.replaceFeatures f)
  | .reload create => { s with site := ((Site.reloadFeatures create).runFrom s.site).2 }
  | .reset => s.onContext (·.reset)
  | .write path now => path.location?.elim s fun l => s.onContext (·.recordWrite l now)
  | .take => { s with taken := s.taken ++ [s.site.context.includedFiles] }
  | .change i files => { s with taken := s.taken.set i files }

def run (operations : List Operation) : Session := operations.foldl perform s

namespace Operation

/-- Does it forget the included files? -/
def Forgets : Operation → Prop
  | .mode v => v.truthy
  | .reset => True
  | _ => False

/-- The mode it leaves, if it has to do with it. -/
def mode? : Operation → Option Bool
  | .mode v => some v.truthy
  | .reset => some false
  | _ => none

/-- The features it leaves, if it has to do with them. -/
def features? : Operation → Option Features
  | .replace f => some f
  | .reload _ | .reset => some .empty
  | _ => none

end Operation

variable {s}

theorem runFrom_reloadFeatures_of_none {site : Site} (h : site.customize = none) (create : Bool) :
    (Site.reloadFeatures create).runFrom site =
      (.ok (), { site with context := site.context.replaceFeatures .empty }) := by
  obtain ⟨tree, _, context, now, notices⟩ := site
  subst h
  simp [Site.reloadFeatures, SiteAction.runFrom_bind]

theorem perform_customize (h : s.site.customize = none) (o : Operation) :
    (s.perform o).site.customize = none := by
  cases o with
  | write path now => cases hl : path.location? <;> simp [perform, onContext, hl, h]
  | reload create => simp [perform, runFrom_reloadFeatures_of_none h, h]
  | _ => exact h

/-! One operation -/

theorem compiling_perform (h : s.site.customize = none) (o : Operation) :
    (s.perform o).site.context.compiling = o.mode?.getD s.site.context.compiling := by
  cases o with
  | write path now =>
    cases hl : path.location? <;> simp [perform, onContext, hl, EngineContext.recordWrite, Operation.mode?]
  | reload create =>
    simp [perform, runFrom_reloadFeatures_of_none h, EngineContext.replaceFeatures, Operation.mode?]
  | record file =>
    simp only [perform, onContext, EngineContext.recordIncluded, Operation.mode?, Option.getD_none]
    split <;> rfl
  | _ => rfl

theorem features_perform (h : s.site.customize = none) (o : Operation) :
    (s.perform o).site.context.features = o.features?.getD s.site.context.features := by
  cases o with
  | write path now =>
    cases hl : path.location? <;>
      simp [perform, onContext, hl, EngineContext.recordWrite, Operation.features?]
  | reload create =>
    simp [perform, runFrom_reloadFeatures_of_none h, EngineContext.replaceFeatures, Operation.features?]
  | record file =>
    simp only [perform, onContext, EngineContext.recordIncluded, Operation.features?, Option.getD_none]
    split <;> rfl
  | _ => rfl

/-- Only what forgets the included files or records one has to do with them. -/
theorem included_perform_of_ne (h : s.site.customize = none) {o : Operation} (hkeeps : ¬ o.Forgets)
    (hother : ∀ file, o ≠ .record file) : (s.perform o).site.context.included = s.site.context.included := by
  cases o with
  | mode v =>
    have hfalsy : v.truthy = false := Bool.eq_false_iff.2 hkeeps
    simp [perform, onContext, EngineContext.setCompiling, hfalsy]
  | record file => exact absurd rfl (hother file)
  | reset => exact absurd trivial hkeeps
  | reload create => simp [perform, runFrom_reloadFeatures_of_none h, EngineContext.replaceFeatures]
  | write path now => cases hl : path.location? <;> simp [perform, onContext, hl, EngineContext.recordWrite]
  | _ => rfl

theorem included_perform_of_forgets {o : Operation} (h : o.Forgets) :
    (s.perform o).site.context.included = [] := by
  cases o with
  | mode v => simp [perform, onContext, EngineContext.setCompiling, show v.truthy = true from h]
  | reset => rfl
  | _ => exact absurd h id

theorem included_perform_record (file : Text) : (s.perform (.record file)).site.context.included =
    (s.site.context.recordIncluded file).included := rfl

theorem mem_included_perform (h : s.site.customize = none) (o : Operation) (file : Text) :
    file ∈ (s.perform o).site.context.included ↔
      (o = .record file ∧ s.site.context.compiling) ∨ (¬ o.Forgets ∧ file ∈ s.site.context.included) := by
  by_cases hforgets : o.Forgets
  · have hne : o ≠ .record file := by rintro rfl; exact hforgets
    simp [included_perform_of_forgets hforgets, hforgets, hne]
  · by_cases hrecord : ∃ f, o = .record f
    · obtain ⟨f, rfl⟩ := hrecord
      rw [included_perform_record]
      cases hc : s.site.context.compiling with
      | false => simp [EngineContext.recordIncluded, hc, hforgets]
      | true => simp [EngineContext.mem_recordIncluded hc, hforgets, or_comm, eq_comm]
    · have hother : ∀ f, o ≠ .record f := fun f heq => hrecord ⟨f, heq⟩
      rw [included_perform_of_ne h hforgets hother]
      simp [hforgets, hother file]

theorem nodup_included_perform (h : s.site.customize = none) (hs : s.site.context.included.Nodup)
    (o : Operation) : (s.perform o).site.context.included.Nodup := by
  by_cases hforgets : o.Forgets
  · rw [included_perform_of_forgets hforgets]
    exact List.nodup_nil
  · by_cases hrecord : ∃ f, o = .record f
    · obtain ⟨f, rfl⟩ := hrecord
      rw [included_perform_record, EngineContext.recordIncluded]
      split
      · next hnew =>
        refine List.nodup_cons.2 ⟨?_, hs⟩
        simp only [Bool.and_eq_true, Bool.not_eq_true', List.contains_eq_mem, decide_eq_false_iff_not] at hnew
        exact hnew.2
      · exact hs
    · rw [included_perform_of_ne h hforgets fun f heq => hrecord ⟨f, heq⟩]
      exact hs

/-! Operations in turn -/

/-- Is the compilation mode on? The latest operation that has to do with it says so. -/
def modeAfter (operations : List Operation) : Bool := (latest Operation.mode? operations).getD false

/-- Was the file recorded while the mode was on, and are the included files not forgotten since? -/
def Listed (operations : List Operation) (file : Text) : Prop :=
  Stands (fun before o => o = .record file ∧ modeAfter before) Operation.Forgets operations

theorem listed_concat {operations : List Operation} {o : Operation} {file : Text} :
    Listed (operations ++ [o]) file ↔
      (o = .record file ∧ modeAfter operations) ∨ (¬ o.Forgets ∧ Listed operations file) :=
  stands_concat

/-- A session that remembers of its operations what it should. -/
structure Remembers (operations : List Operation) (s : Session) : Prop where
  customize : s.site.customize = none
  compiling : s.site.context.compiling = modeAfter operations
  features : s.site.context.features = (latest Operation.features? operations).getD .empty
  included : ∀ file, file ∈ s.site.context.included ↔ Listed operations file
  distinct : s.site.context.included.Nodup

theorem Remembers.perform {operations : List Operation} (h : Remembers operations s) (o : Operation) :
    Remembers (operations ++ [o]) (s.perform o) where
  customize := perform_customize h.customize o
  compiling := by
    rw [compiling_perform h.customize, h.compiling, modeAfter, modeAfter, latest_concat]
    cases o.mode? <;> rfl
  features := by
    rw [features_perform h.customize, h.features, latest_concat]
    cases o.features? <;> rfl
  included file := by
    rw [mem_included_perform h.customize, h.compiling, h.included, listed_concat]
  distinct := nodup_included_perform h.customize h.distinct o

theorem Remembers.run {before : List Operation} (h : Remembers before s) (operations : List Operation) :
    Remembers (before ++ operations) (s.run operations) := by
  induction operations generalizing before s with
  | nil => simpa [Session.run] using h
  | cons o operations ih => simpa [Session.run] using ih (h.perform o)

theorem remembers_start (tree : FileTree) (timeToLive now : Number) :
    Remembers [] (start tree timeToLive now) where
  customize := rfl
  compiling := rfl
  features := rfl
  included file := by simp [start, EngineContext.start, Listed]
  distinct := List.nodup_nil

@[simp] theorem mem_includedFiles {c : EngineContext} {file : Text} :
    file ∈ c.includedFiles ↔ file ∈ c.included := by
  simp [EngineContext.includedFiles]

theorem nodup_includedFiles {c : EngineContext} (h : c.included.Nodup) : c.includedFiles.Nodup :=
  (List.mergeSort_perm _ _).nodup_iff.2 h

/-- The state of a context is what its operations say, each piece of it what the latest ones that have to do
with it say. -/
theorem run_remembers (tree : FileTree) (timeToLive now : Number) (operations : List Operation) :
    let c := ((start tree timeToLive now).run operations).site.context
    (∀ file, file ∈ c.includedFiles ↔ Listed operations file) ∧ c.includedFiles.Nodup ∧
      c.features = (latest Operation.features? operations).getD .empty ∧
      c.compiling = modeAfter operations ∧
      ∀ o : Operation, ¬ o.Forgets → (∀ file, o = .record file → modeAfter operations = false) →
        ((start tree timeToLive now).run (operations ++ [o])).site.context.includedFiles = c.includedFiles := by
  have h : Remembers operations _ := (remembers_start tree timeToLive now).run operations
  refine ⟨fun file => mem_includedFiles.trans (h.included file), nodup_includedFiles h.distinct, h.features,
    h.compiling, fun o hkeeps hoff => ?_⟩
  have hrun : (start tree timeToLive now).run (operations ++ [o]) =
      ((start tree timeToLive now).run operations).perform o := by simp [run]
  suffices hsame : (((start tree timeToLive now).run operations).perform o).site.context.included =
      ((start tree timeToLive now).run operations).site.context.included by
    rw [hrun, EngineContext.includedFiles, hsame, EngineContext.includedFiles]
  by_cases hrecord : ∃ f, o = .record f
  · obtain ⟨f, rfl⟩ := hrecord
    rw [included_perform_record, EngineContext.recordIncluded, h.compiling, hoff f rfl]
    rfl
  · exact included_perform_of_ne h.customize hkeeps fun f heq => hrecord ⟨f, heq⟩

/-- The mode is left, and what is recorded afterwards does not count. -/
def sampleOperations : List Operation :=
  [.record ['a'], .mode (.str ['y']), .record ['b'], .take, .change 0 [], .mode .null, .record ['c'], .reload true]

theorem run_remembers_sample :
    ['b'] ∈ ((start .empty (.whole 2) (.whole 0)).run sampleOperations).site.context.includedFiles ∧
      ((start .empty (.whole 2) (.whole 0)).run (sampleOperations ++ [.record ['d']])).site.context.includedFiles =
        ((start .empty (.whole 2) (.whole 0)).run sampleOperations).site.context.includedFiles := by
  obtain ⟨hlisted, -, -, -, hkept⟩ := run_remembers .empty (.whole 2) (.whole 0) sampleOperations
  refine ⟨(hlisted _).2 ?_, hkept (.record ['d']) id fun _ _ => rfl⟩
  refine ⟨[.record ['a'], .mode (.str ['y'])], .record ['b'], _, rfl, ⟨rfl, rfl⟩, ?_⟩
  simp [Operation.Forgets, Value.truthy]

end Session

end PageTemplate
