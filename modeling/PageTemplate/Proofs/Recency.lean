import Mathlib.Algebra.Order.Group.Defs
import Mathlib.Algebra.Order.Group.Int
import Mathlib.Algebra.Order.Group.Unbundled.Int
import Mathlib.Data.Finset.Card
import PageTemplate.Proofs.History
import PageTemplate.Site.Context
set_option autoImplicit false
/-!
What the record of recent writes answers over a run of calls. Every answer is a matter of the writes before
it, whatever was dropped and when: questions drop only what no later question would have counted, as long as
the clock does not go backwards.
-/
namespace PageTemplate.RecentWrites

/-- What may be asked of the record. A path is in it if the record contains it. -/
inductive Call where
  | record (path : Path)
  | contains (path : Path)
  | mem (path : Path)
  | length
  | clear
  deriving DecidableEq, Repr

inductive Answer where
  | done
  | refused
  | found (b : Bool)
  | size (n : Nat)
  deriving DecidableEq, Repr

namespace Call

def isQuery : Call → Bool
  | contains _ | mem _ | length => true
  | record _ | clear => false

/-- Does a call write the place? -/
def Writes (l : Location) (call : Call) : Prop := ∃ path, call = record path ∧ path.location? = some l

/-- Is an earlier write of the place forgotten? -/
def Forgets (l : Location) (call : Call) : Prop := call = clear ∨ call.Writes l

theorem not_forgets_of_isQuery {call : Call} (h : call.isQuery) (l : Location) : ¬ call.Forgets l := by
  rintro (rfl | ⟨path, rfl, -⟩) <;> cases h

end Call

/-- Elements with their marks. -/
def kept {α : Type} : List Bool → List α → List α
  | true :: marks, a :: as => a :: kept marks as
  | false :: marks, _ :: as => kept marks as
  | _, _ => []

theorem kept_sublist {α : Type} (marks : List Bool) (as : List α) : (kept marks as).Sublist as := by
  induction marks, as using kept.induct with
  | case1 marks a as ih => exact ih.cons_cons a
  | case2 marks a as ih => exact ih.cons a
  | case3 marks as => rw [kept]; exact as.nil_sublist; all_goals assumption

section Run

variable {τ : Type} [Sub τ] [LT τ] [DecidableLT τ]

/-- The answer to a call at a time, and the record behind it. -/
def respond (now : τ) (r : RecentWrites τ) : Call → Answer × RecentWrites τ
  | .record path =>
    match r.recordPath? path now with
    | some r => (.done, r)
    | none => (.refused, r)
  | .contains path | .mem path =>
    match r.containsPath? path now with
    | (some b, r) => (.found b, r)
    | (none, r) => (.refused, r)
  | .length => let (n, r) := r.count now; (.size n, r)
  | .clear => (.done, r.clear)

def answers (r : RecentWrites τ) : List (τ × Call) → List Answer
  | [] => []
  | (now, call) :: calls => (respond now r call).1 :: answers (respond now r call).2 calls

/-- A question only drops what is out of date. -/
theorem respond_of_isQuery (now : τ) (r : RecentWrites τ) {call : Call} (h : call.isQuery) :
    (respond now r call).2 = r.prune now := by
  cases call with
  | contains path => cases hl : path.location? <;> simp [respond, containsPath?, hl, RecentWrites.contains]
  | mem path => cases hl : path.location? <;> simp [respond, containsPath?, hl, RecentWrites.contains]
  | length => rfl
  | record path => cases h
  | clear => cases h

@[simp] theorem respond_timeToLive (now : τ) (r : RecentWrites τ) (call : Call) :
    (respond now r call).2.timeToLive = r.timeToLive := by
  cases h : call.isQuery with
  | true => rw [respond_of_isQuery now r h]; rfl
  | false =>
    cases call with
    | record path => cases hl : path.location? <;> simp [respond, recordPath?, hl, record]
    | clear => rfl
    | contains path => cases h
    | mem path => cases h
    | length => cases h

/-- What one call makes of the entries. -/
theorem mem_respond_entries {now t : τ} {r : RecentWrites τ} {call : Call} {l : Location} :
    (l, t) ∈ (respond now r call).2.entries ↔
      (call.Writes l ∧ now = t) ∨
        (¬ call.Forgets l ∧ (l, t) ∈ r.entries ∧ (call.isQuery → ¬ t < now - r.timeToLive)) := by
  cases h : call.isQuery with
  | true =>
    have hkeeps := Call.not_forgets_of_isQuery h l
    have hno : ¬ call.Writes l := fun hw => hkeeps (.inr hw)
    simp [respond_of_isQuery now r h, prune, hkeeps, hno]
  | false =>
    cases call with
    | record path =>
      cases hl : path.location? with
      | none => simp [respond, recordPath?, hl, Call.Forgets, Call.Writes]
      | some place =>
        have hwrites : (Call.record path).Writes l ↔ place = l := by simp [Call.Writes, hl]
        have hforgets : (Call.record path).Forgets l ↔ place = l := by simp [Call.Forgets, hwrites]
        rw [hwrites, hforgets]
        by_cases hplace : place = l
        · subst hplace
          simp [respond, recordPath?, hl, record, eq_comm]
        · simp [respond, recordPath?, hl, record, hplace, Ne.symm hplace]
    | clear => simp [respond, clear, Call.Forgets, Call.Writes]
    | contains path => cases h
    | mem path => cases h
    | length => cases h

theorem nodup_prune {now : τ} {r : RecentWrites τ} (h : (r.entries.map (·.1)).Nodup) :
    ((r.prune now).entries.map (·.1)).Nodup :=
  h.sublist (List.filter_sublist.map _)

theorem nodup_respond {now : τ} {r : RecentWrites τ} (h : (r.entries.map (·.1)).Nodup) (call : Call) :
    ((respond now r call).2.entries.map (·.1)).Nodup := by
  cases hq : call.isQuery with
  | true => rw [respond_of_isQuery now r hq]; exact nodup_prune h
  | false =>
    cases call with
    | record path =>
      cases hl : path.location? with
      | none => simpa [respond, recordPath?, hl] using h
      | some l =>
        have hrest := h.sublist ((List.filter_sublist (p := fun e : Location × τ => e.1 != l)).map (·.1))
        simp only [respond, recordPath?, hl, record, Option.map_some, List.map_append, List.map_cons,
          List.map_nil]
        rw [← List.concat_eq_append]
        refine hrest.concat fun hmem => ?_
        obtain ⟨e, he, rfl⟩ := List.mem_map.1 hmem
        simp at he
    | clear => simp [respond, clear]
    | contains path => cases hq
    | mem path => cases hq
    | length => cases hq

end Run

section Past

variable {τ : Type}

/-- Was the place last written at that time, and not forgotten since? -/
def WrittenAt (calls : List (τ × Call)) (l : Location) (t : τ) : Prop :=
  Stands (fun _ c => c.2.Writes l ∧ c.1 = t) (fun c => c.2.Forgets l) calls

theorem writtenAt_concat {calls : List (τ × Call)} {now t : τ} {call : Call} {l : Location} :
    WrittenAt (calls ++ [(now, call)]) l t ↔
      (call.Writes l ∧ now = t) ∨ (¬ call.Forgets l ∧ WrittenAt calls l t) :=
  stands_concat

/-- A question is no part of what was written. -/
theorem writtenAt_concat_of_isQuery {calls : List (τ × Call)} {now t : τ} {call : Call} {l : Location}
    (h : call.isQuery) : WrittenAt (calls ++ [(now, call)]) l t ↔ WrittenAt calls l t := by
  have hkeeps := Call.not_forgets_of_isQuery h l
  have hno : ¬ call.Writes l := fun hw => hkeeps (.inr hw)
  simp [writtenAt_concat, hkeeps, hno]

end Past

section Exact

variable {τ : Type} [AddCommGroup τ] [LinearOrder τ]

/-- Was the place written, and is its latest write at most as old as the time to live? -/
def Recent (timeToLive : τ) (calls : List (τ × Call)) (now : τ) (l : Location) : Prop :=
  ∃ t, WrittenAt calls l t ∧ now - t ≤ timeToLive

/-- Is it the answer that the calls before call for? -/
def Right (timeToLive : τ) (before : List (τ × Call)) (now : τ) : Call → Answer → Prop
  | .record path, a => a = if path.location?.isSome then .done else .refused
  | .contains path, a | .mem path, a =>
    match path.location? with
    | some l => ∃ b, a = .found b ∧ (b = true ↔ Recent timeToLive before now l)
    | none => a = .refused
  | .length, a =>
    ∃ places : Finset Location, (∀ l, l ∈ places ↔ Recent timeToLive before now l) ∧ a = .size places.card
  | .clear, a => a = .done

/-- Answers to calls that follow others, each of them the right one. -/
inductive Answered (timeToLive : τ) : List (τ × Call) → List (τ × Call) → List Answer → Prop
  | nil {before : List (τ × Call)} : Answered timeToLive before [] []
  | cons {before calls : List (τ × Call)} {now : τ} {call : Call} {a : Answer} {as : List Answer} :
    Right timeToLive before now call a → Answered timeToLive (before ++ [(now, call)]) calls as →
      Answered timeToLive before ((now, call) :: calls) (a :: as)

/-- The right answer depends on what was written only. -/
theorem Right.unique {timeToLive now : τ} {before before' : List (τ × Call)} {call : Call} {a a' : Answer}
    (hsame : ∀ l t, WrittenAt before l t ↔ WrittenAt before' l t)
    (h : Right timeToLive before now call a) (h' : Right timeToLive before' now call a') : a = a' := by
  have hrecent (l : Location) : Recent timeToLive before now l ↔ Recent timeToLive before' now l := by
    simp [Recent, hsame]
  have hfound (path : Path) (h : Right timeToLive before now (.contains path) a)
      (h' : Right timeToLive before' now (.contains path) a') : a = a' := by
    simp only [Right] at h h'
    cases hl : path.location? with
    | none => rw [hl] at h h'; exact h.trans h'.symm
    | some l =>
      rw [hl] at h h'
      obtain ⟨b, rfl, hb⟩ := h
      obtain ⟨b', rfl, hb'⟩ := h'
      rw [Bool.eq_iff_iff.2 ((hb.trans (hrecent l)).trans hb'.symm)]
  cases call with
  | record path => exact Eq.trans h (Eq.symm h')
  | contains path => exact hfound path h h'
  | mem path => exact hfound path h h'
  | length =>
    obtain ⟨places, hplaces, rfl⟩ := h
    obtain ⟨places', hplaces', rfl⟩ := h'
    rw [Finset.ext fun l => (hplaces l).trans ((hrecent l).trans (hplaces' l).symm)]
  | clear => exact Eq.trans h (Eq.symm h')

/-- Calls without some of the questions among them get the answers that they get among them. -/
theorem Answered.eq_kept {timeToLive : τ} {before before' calls : List (τ × Call)} {as bs : List Answer}
    {marks : List Bool} (h : Answered timeToLive before calls as)
    (hlength : marks.length = calls.length) (hdropped : ∀ c ∈ calls.zip marks, c.2 = false → c.1.2.isQuery)
    (hsame : ∀ l t, WrittenAt before l t ↔ WrittenAt before' l t)
    (h' : Answered timeToLive before' (kept marks calls) bs) : bs = kept marks as := by
  induction h generalizing before' marks bs with
  | nil =>
    obtain rfl := List.length_eq_zero_iff.1 hlength
    cases h'
    rfl
  | @cons before calls now call a as hright hrest ih =>
    cases marks with
    | nil => cases hlength
    | cons mark marks =>
      have hlength' : marks.length = calls.length := by simpa using hlength
      have hdropped' : ∀ c ∈ calls.zip marks, c.2 = false → c.1.2.isQuery :=
        fun c hc => hdropped c (List.mem_cons_of_mem _ hc)
      cases mark with
      | true =>
        cases h' with
        | cons hright' hrest' =>
          have hsame' (l : Location) (t : τ) :
              WrittenAt (before ++ [(now, call)]) l t ↔ WrittenAt (before' ++ [(now, call)]) l t := by
            rw [writtenAt_concat, writtenAt_concat, hsame]
          rw [kept, Right.unique hsame hright hright', ih hlength' hdropped' hsame' hrest']
      | false =>
        have hquery : call.isQuery := hdropped ((now, call), false) List.mem_cons_self rfl
        exact ih hlength' hdropped' (fun l t => (writtenAt_concat_of_isQuery hquery).trans (hsame l t)) h'

/-- A record that knows what the calls wrote, but for what is out of date. -/
structure Faithful (timeToLive : τ) (calls : List (τ × Call)) (r : RecentWrites τ) : Prop where
  lifetime : r.timeToLive = timeToLive
  distinct : (r.entries.map (·.1)).Nodup
  written : ∀ l t, (l, t) ∈ r.entries → WrittenAt calls l t
  known : ∀ l t now, (∀ c ∈ calls, c.1 ≤ now) → WrittenAt calls l t → now - t ≤ timeToLive →
    (l, t) ∈ r.entries

theorem faithful_start (timeToLive : τ) : Faithful timeToLive [] (start timeToLive) where
  lifetime := rfl
  distinct := by simp [start]
  written l t h := by simp [start] at h
  known l t now _ h _ := absurd h not_stands_nil

variable [IsOrderedAddMonoid τ] {timeToLive now : τ} {calls : List (τ × Call)} {r : RecentWrites τ}

namespace Faithful

/-- One call. -/
theorem respond (h : Faithful timeToLive calls r) (now : τ) (call : Call) :
    Faithful timeToLive (calls ++ [(now, call)]) (RecentWrites.respond now r call).2 where
  lifetime := by rw [respond_timeToLive, h.lifetime]
  distinct := nodup_respond h.distinct call
  written l t hmem := by
    rw [writtenAt_concat]
    exact (mem_respond_entries.1 hmem).imp_right fun hold => ⟨hold.1, h.written l t hold.2.1⟩
  known l t later hlater hwritten hrecent := by
    rw [mem_respond_entries, h.lifetime]
    refine (writtenAt_concat.1 hwritten).imp_right fun hold => ⟨hold.1, ?_, fun _ => ?_⟩
    · exact h.known l t later (fun c hc => hlater c (List.mem_append_left _ hc)) hold.2 hrecent
    · have hnow : now ≤ later := hlater (now, call) (by simp)
      rw [not_lt, sub_le_comm]
      exact (sub_le_sub_right hnow t).trans hrecent

theorem mem_prune (h : Faithful timeToLive calls r) (hclock : ∀ c ∈ calls, c.1 ≤ now) {l : Location} {t : τ} :
    (l, t) ∈ (r.prune now).entries ↔ WrittenAt calls l t ∧ now - t ≤ timeToLive := by
  have hprune : (l, t) ∈ (r.prune now).entries ↔ (l, t) ∈ r.entries ∧ now - t ≤ timeToLive := by
    rw [sub_le_comm]
    simp [prune, h.lifetime]
  rw [hprune]
  exact ⟨fun hm => ⟨h.written l t hm.1, hm.2⟩, fun hw => ⟨h.known l t now hclock hw.1 hw.2, hw.2⟩⟩

theorem mem_map_prune (h : Faithful timeToLive calls r) (hclock : ∀ c ∈ calls, c.1 ≤ now) {l : Location} :
    l ∈ (r.prune now).entries.map (·.1) ↔ Recent timeToLive calls now l := by
  simp only [Recent, ← h.mem_prune hclock, List.mem_map, Prod.exists, exists_and_right, exists_eq_right]

theorem right (h : Faithful timeToLive calls r) (hclock : ∀ c ∈ calls, c.1 ≤ now) (call : Call) :
    Right timeToLive calls now call (RecentWrites.respond now r call).1 := by
  have hfound (path : Path) :
      Right timeToLive calls now (.contains path) (RecentWrites.respond now r (.contains path)).1 := by
    simp only [Right]
    cases hl : path.location? with
    | none => simp [RecentWrites.respond, containsPath?, hl]
    | some l =>
      refine ⟨(r.prune now).entries.any (·.1 == l), ?_, ?_⟩
      · simp [RecentWrites.respond, containsPath?, hl, RecentWrites.contains]
      · rw [← h.mem_map_prune hclock]
        simp
  cases call with
  | record path => cases hl : path.location? <;> simp [Right, RecentWrites.respond, recordPath?, hl]
  | contains path => exact hfound path
  | mem path => exact hfound path
  | length =>
    refine ⟨((r.prune now).entries.map (·.1)).toFinset, fun l => ?_, ?_⟩
    · rw [List.mem_toFinset, h.mem_map_prune hclock]
    · rw [List.toFinset_card_of_nodup (nodup_prune h.distinct), List.length_map]
      rfl
  | clear => rfl

/-- A run of calls. -/
theorem answered (h : Faithful timeToLive calls r) (rest : List (τ × Call))
    (hclock : (calls ++ rest).Pairwise fun c d => c.1 ≤ d.1) :
    Answered timeToLive calls rest (answers r rest) := by
  induction rest generalizing calls r with
  | nil => exact .nil
  | cons c rest ih =>
    obtain ⟨now, call⟩ := c
    have hbefore : ∀ c ∈ calls, c.1 ≤ now :=
      fun c hc => (List.pairwise_append.1 hclock).2.2 c hc (now, call) List.mem_cons_self
    exact .cons (h.right hbefore call) (ih (h.respond now call) (by simpa using hclock))

end Faithful

/-- Every answer is right, and the questions put in or left out on the way change no other answer. -/
theorem answers_right (timeToLive : τ) (calls : List (τ × Call))
    (hclock : calls.Pairwise fun c d => c.1 ≤ d.1) :
    Answered timeToLive [] calls (answers (start timeToLive) calls) ∧
      ∀ marks : List Bool, marks.length = calls.length →
        (∀ c ∈ calls.zip marks, c.2 = false → c.1.2.isQuery) →
        answers (start timeToLive) (kept marks calls) = kept marks (answers (start timeToLive) calls) := by
  have hanswered := (faithful_start timeToLive).answered calls hclock
  refine ⟨hanswered, fun marks hlength hdropped => ?_⟩
  have hkept := (faithful_start timeToLive).answered (kept marks calls)
    (hclock.sublist (kept_sublist marks calls))
  exact hanswered.eq_kept hlength hdropped (fun l t => Iff.rfl) hkept

/-- Two spellings of one path, and another one whose write is out of date in between. -/
def sampleCalls : List (ℤ × Call) :=
  [(0, .record ⟨false, [['a']]⟩), (1, .record ⟨false, [['b']]⟩), (2, .length),
    (2, .record ⟨false, [['c'], upSegment, ['a']]⟩), (3, .contains ⟨false, [['b']]⟩),
    (4, .mem ⟨false, [['b']]⟩), (4, .contains ⟨true, [['a']]⟩), (4, .contains ⟨false, [['\x00']]⟩),
    (4, .length), (4, .clear), (4, .contains ⟨false, [['a']]⟩)]

theorem answers_right_sample :
    answers (start 2) sampleCalls =
        [.done, .done, .size 2, .done, .found true, .found false, .found true, .refused, .size 1, .done,
          .found false] ∧
      Answered 2 [] sampleCalls (answers (start 2) sampleCalls) ∧
      answers (start 2)
          (kept [true, true, false, true, false, false, true, false, true, true, true] sampleCalls) =
        [.done, .done, .done, .found true, .size 1, .done, .found false] :=
  have hright := answers_right (2 : ℤ) sampleCalls (by decide)
  ⟨by decide, hright.1, (hright.2 _ (by decide) (by decide)).trans (by decide)⟩

end Exact

section Number

variable {σ τ : Type} [Sub σ] [LT σ] [DecidableLT σ] [Sub τ] [LT τ] [DecidableLT τ]

/-- A record with its times in another form. -/
def mapTimes (f : σ → τ) (r : RecentWrites σ) : RecentWrites τ :=
  ⟨f r.timeToLive, r.entries.map (Prod.map id f)⟩

variable {f : σ → τ} (hsub : ∀ a b, f (a - b) = f a - f b) (hlt : ∀ a b, f a < f b ↔ a < b)
include hsub hlt

theorem prune_mapTimes (now : σ) (r : RecentWrites σ) :
    (r.mapTimes f).prune (f now) = (r.prune now).mapTimes f := by
  simp [prune, mapTimes, List.filter_map, Function.comp_def, ← hsub, hlt]

theorem respond_mapTimes (now : σ) (r : RecentWrites σ) (call : Call) :
    respond (f now) (r.mapTimes f) call =
      ((respond now r call).1, (respond now r call).2.mapTimes f) := by
  have hprune := prune_mapTimes hsub hlt now r
  have hfound (l : Location) : (r.mapTimes f).contains l (f now) =
      ((r.contains l now).1, (r.contains l now).2.mapTimes f) := by
    simp only [RecentWrites.contains, hprune]
    simp [mapTimes, Function.comp_def]
  cases call with
  | record path =>
    cases hl : path.location? <;>
      simp [respond, recordPath?, hl, record, mapTimes, List.filter_map, Function.comp_def]
  | contains path => cases hl : path.location? <;> simp [respond, containsPath?, hl, hfound, hprune]
  | mem path => cases hl : path.location? <;> simp [respond, containsPath?, hl, hfound, hprune]
  | length =>
    simp only [respond, count, hprune]
    simp [mapTimes]
  | clear => rfl

theorem answers_mapTimes (r : RecentWrites σ) (calls : List (σ × Call)) :
    answers (r.mapTimes f) (calls.map (Prod.map f id)) = answers r calls := by
  induction calls generalizing r with
  | nil => rfl
  | cons c calls ih => simp [answers, respond_mapTimes hsub hlt, ih]

omit hsub hlt in
/-- Whole numbers tell the time as the integers do. -/
theorem answers_whole (timeToLive : ℤ) (calls : List (ℤ × Call)) :
    answers (start (Number.whole timeToLive)) (calls.map (Prod.map .whole id)) =
      answers (start timeToLive) calls := by
  refine answers_mapTimes (fun a b => rfl) (fun a b => ?_) (start timeToLive) calls
  change (compare a b == .lt) = true ↔ a < b
  rw [beq_iff_eq, compare_lt_iff_lt]

end Number

end PageTemplate.RecentWrites
