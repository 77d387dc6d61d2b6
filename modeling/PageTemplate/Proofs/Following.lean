import PageTemplate.Proofs.Alone
import PageTemplate.Proofs.Dotted
import PageTemplate.Proofs.Place
import PageTemplate.Proofs.Provenance
set_option autoImplicit false
/-!
Dotted paths followed in two ways. To follow a path through plain data and to evaluate it as an expression
gives one value, null where either of them ends on the way, unless a name in it means something of its own
to an expression.
-/
namespace PageTemplate

theorem Token.isAsciiDigit_of_startsName {c : Char} (h : startsName c = true) : isAsciiDigit c = false := by
  have hall : ∀ n < 128, startsName (Char.ofNat n) = true → isAsciiDigit (Char.ofNat n) = false := by decide
  have hc := hall c.toNat (startsName_lt h)
  rw [Char.ofNat_toNat] at hc
  exact hc h

namespace Value

mutual

/-- What a site may hold: no functions, and nothing that groups them. -/
def isData : Value → Bool
  | .null | .bool _ | .number _ | .str _ | .host _ _ => true
  | .list xs | .tuple xs => allData xs
  | .map es => dataIn es
  | .builtin _ | .library _ | .textMethod _ _ _ | .listMethod _ _ _ => false

def allData : List Value → Bool
  | [] => true
  | x :: xs => isData x && allData xs

def dataIn : List (Value × Value) → Bool
  | [] => true
  | (_, v) :: es => isData v && dataIn es

end

theorem isData_of_mem {xs : List Value} (h : allData xs) {x : Value} (hx : x ∈ xs) : x.isData := by
  induction xs with
  | nil => cases hx
  | cons y ys ih =>
    rw [allData, Bool.and_eq_true] at h
    rcases List.mem_cons.1 hx with rfl | hx
    · exact h.1
    · exact ih h.2 hx

theorem isData_get? {es : Entries} (h : dataIn es) {key : Text} {v : Value} (hv : es.get? key = some v) :
    v.isData := by
  induction es with
  | nil => cases hv
  | cons e es ih =>
    obtain ⟨k, w⟩ := e
    rw [dataIn, Bool.and_eq_true] at h
    cases k with
    | str k =>
      rw [Entries.get?] at hv
      split at hv
      · exact Option.some.inj hv ▸ h.1
      · exact ih h.2 hv
    | _ => exact ih h.2 hv

theorem isData_member? {v w : Value} (h : v.isData) {name : Text} (hw : v.member? name = .ok (some w)) :
    w.isData := by
  have hitems {xs : List Value} (hxs : allData xs) (hw : itemOf? id xs name = .ok (some w)) : w.isData := by
    rcases itemOf?_cases hw with rfl | ⟨x, hx, rfl⟩
    · rfl
    · exact isData_of_mem hxs hx
  cases v with
  | map es => exact isData_get? h (Except.ok.inj hw)
  | list xs => exact hitems h hw
  | tuple xs => exact hitems h hw
  | str t => rcases itemOf?_cases hw with rfl | ⟨c, -, rfl⟩ <;> rfl
  | _ => simp [member?] at hw

/-- Where the name is none of an index, nothing fails. -/
theorem exists_member? {name : Text} (h : index? name = .ok none) (v : Value) : ∃ o, v.member? name = .ok o := by
  have hitem {α : Type} (wrap : α → Value) (items : List α) : ∃ o, itemOf? wrap items name = .ok o := by
    rw [itemOf?, h]
    split <;> exact ⟨_, rfl⟩
  cases v with
  | list xs | tuple xs => exact hitem id xs
  | str t => exact hitem _ t
  | _ => exact ⟨_, rfl⟩

theorem index?_of_isIdentifier {name : Text} (h : Expr.isIdentifier name) : index? name = .ok none := by
  cases name with
  | nil => cases h
  | cons c cs =>
    have hc := Token.isAsciiDigit_of_startsName (Bool.and_eq_true_iff.1 h).1
    simp [index?, hc]

/-- One segment of a path, null where it leads nowhere. -/
def step (v : Value) (segment : Text) : Value :=
  if isUnsafeName segment then .null else ((v.member? segment).toOption.getD none).getD .null

theorem isData_step {v : Value} (h : v.isData) (segment : Text) : (v.step segment).isData := by
  unfold step
  split
  · rfl
  · cases hw : v.member? segment with
    | error f => rfl
    | ok o =>
      cases o with
      | none => rfl
      | some w => exact isData_member? h hw

@[simp] theorem step_null (segment : Text) : null.step segment = null := ite_self _

@[simp] theorem foldl_step_null (segments : List Text) : segments.foldl step null = null := by
  induction segments with
  | nil => rfl
  | cons s ss ih => rw [List.foldl_cons, step_null, ih]

/-- Following a path is following its segments one by one, and null is followed nowhere. -/
theorem follow?_map_getD {segments : List Text} (h : ∀ s ∈ segments, index? s = .ok none) (v : Value) :
    (follow? segments v).map (·.getD .null) = .ok (segments.foldl step v) := by
  induction segments generalizing v with
  | nil => rfl
  | cons s ss ih =>
    obtain ⟨hs, hss⟩ := List.forall_mem_cons.1 h
    by_cases hv : v = .null
    · subst hv
      rw [foldl_step_null]
      rfl
    · obtain ⟨o, ho⟩ := exists_member? hs v
      rw [List.foldl_cons, follow?, step, ho]
      · cases hu : isUnsafeName s with
        | true => exact (congrArg Except.ok (foldl_step_null ss)).symm
        | false =>
          cases o with
          | none => exact (congrArg Except.ok (foldl_step_null ss)).symm
          | some w => exact ih hss w
      · exact hv

/-- Does a text or a list have a method of that name? -/
def isMethodName (name : Text) : Bool :=
  (TextMethod.all.any fun m => m.name == name) || ListMethod.all.any fun m => m.name == name

/-- Where no method has the name, a member of data is the next segment. -/
theorem memberOf_eq_step {v : Value} (h : v.isData) {name : Text} (hname : isMethodName name = false)
    (hindex : index? name = .ok none) (mark : Mark) : v.memberOf mark name = .ok (v.step name) := by
  rw [isMethodName, Bool.or_eq_false_iff, List.any_eq_false, List.any_eq_false] at hname
  have htext : TextMethod.all.find? (fun m => m.name == name) = none := List.find?_eq_none.2 hname.1
  have hlist : ListMethod.all.find? (fun m => m.name == name) = none := List.find?_eq_none.2 hname.2
  have hmember : (v.member? name).map (·.getD .null) = .ok (((v.member? name).toOption.getD none).getD .null) := by
    obtain ⟨o, ho⟩ := exists_member? hindex v
    rw [ho]
    rfl
  unfold memberOf step
  split
  · rfl
  · cases v with
    | library l => cases h
    | str t => simpa only [htext] using hmember
    | list xs => simpa only [hlist] using hmember
    | _ => exact hmember

end Value

/-- The value of an outcome, null where there is none. -/
def Outcome.value (o : Outcome Value) : Value := o.result.toOption.getD .null

theorem Value.access_str {v : Value} (hv : v ≠ .null) (mark : Mark) (name : Text) :
    v.access mark (.str name) = .ofExcept (v.memberOf mark name) := by
  unfold access
  split
  · exact absurd rfl hv
  · rfl

theorem Value.value_access {v : Value} (h : v.isData) {name : Text} (hname : isMethodName name = false)
    (hindex : index? name = .ok none) (mark : Mark) : (v.access mark (.str name)).value = v.step name := by
  by_cases hv : v = .null
  · rw [hv, step_null]
    rfl
  · rw [access_str hv, memberOf_eq_step h hname hindex]
    rfl

namespace Expr

variable {s : Surroundings} {e : Expr} {v : Value}

theorem value_eval_member (h : ∀ mark, (e.eval s mark).value = v) (hv : v.isData) {name : Text}
    (hname : Value.isMethodName name = false) (hindex : Value.index? name = .ok none) (mark : Mark) :
    ((Expr.member e (.literal (.str name))).eval s mark).value = v.step name := by
  have he := h (mark.child 0)
  have heval : (Expr.member e (.literal (.str name))).eval s mark =
      (e.eval s (mark.child 0)).andThen fun w => w.access mark (.str name) := by
    rw [eval]
    change (e.eval s (mark.child 0)).andThen _ = _
    congr 1
  rw [heval, Outcome.value, Outcome.andThen]
  rw [Outcome.value] at he
  cases hr : (e.eval s (mark.child 0)).result with
  | error f =>
    rw [hr] at he
    obtain rfl : Value.null = v := he
    exact (Value.step_null name).symm
  | ok w =>
    rw [hr] at he
    obtain rfl : w = v := he
    exact Value.value_access hv hname hindex mark

theorem value_eval_members (h : ∀ mark, (e.eval s mark).value = v) (hv : v.isData) {later : List Text}
    (hlater : ∀ name ∈ later, Value.isMethodName name = false)
    (hindices : ∀ name ∈ later, Value.index? name = .ok none) (mark : Mark) :
    ((Dotted.members e later).eval s mark).value = later.foldl Value.step v := by
  induction later generalizing e v with
  | nil => exact h mark
  | cons name later ih =>
    obtain ⟨hname, hlater⟩ := List.forall_mem_cons.1 hlater
    obtain ⟨hindex, hindices⟩ := List.forall_mem_cons.1 hindices
    exact ih (value_eval_member h hv hname hindex) (Value.isData_step hv name) hlater hindices

/-- A name that the context may bind is the first segment of a path. -/
theorem value_eval_name {n : Text} (hglobal : (Scope.global? n).isNone) (hnull : Scope.nulledNames.contains n = false)
    (mark : Mark) : ((Expr.name n).eval s mark).value = (Value.map s.context).step n := by
  rw [eval, Value.step]
  cases hu : isUnsafeName n with
  | true => rfl
  | false =>
    simp only [Scope.lookup?, hnull, Option.isNone_iff_eq_none.1 hglobal, hu, Value.member?, Bool.false_eq_true,
      if_false]
    cases s.context.get? n <;> rfl

end Expr

namespace Dotted

variable (p : Dotted)

theorem mem_source {c : Char} (h : c ∈ p.source) : Token.continuesName c = true ∨ c = '.' := by
  obtain ⟨hfirst, hlater⟩ := List.forall_mem_cons.1 p.named
  rcases List.mem_append.1 h with h | h
  · exact .inl (Token.continuesName_of_mem hfirst h)
  · obtain ⟨s, hs, hc⟩ := List.mem_flatMap.1 h
    rcases List.mem_cons.1 hc with rfl | hc
    · exact .inr rfl
    · exact .inl (Token.continuesName_of_mem (hlater s hs) hc)

theorem notMem_source {c : Char} (hname : Token.continuesName c = false) (hpoint : c ≠ '.') : c ∉ p.source := by
  intro h
  rcases p.mem_source h with h | h
  · rw [hname] at h; cases h
  · exact hpoint h

theorem isBlank_of_mem_source {c : Char} (h : c ∈ p.source) : isBlank c = false := by
  rcases p.mem_source h with h | rfl
  · rcases Bool.or_eq_true_iff.1 h with h | h
    · exact isBlank_of_isWordChar h
    · rw [eq_of_beq h]; decide
  · decide

theorem source_ne_nil : p.source ≠ [] := by
  have hfirst := (List.forall_mem_cons.1 p.named).1
  intro h
  rw [(List.append_eq_nil_iff.1 h).1] at hfirst
  cases hfirst

theorem trim_source : trim p.source = p.source := trim_of_notBlank fun _ => p.isBlank_of_mem_source

theorem source_eq_joinWith : p.source = joinWith ['.'] (p.first :: p.later) := by
  rw [source]
  generalize p.first = first
  induction p.later generalizing first with
  | nil => simp [pointed, joinWith]
  | cons s later ih => rw [joinWith, ← ih s]; simp [pointed]

theorem splitAt_source : splitAt ['.'] p.source = p.first :: p.later := by
  rw [source_eq_joinWith]
  exact splitAt_joinWith (List.cons_ne_nil _ _) fun s hs =>
    Token.notMem_of_isIdentifier (p.named s hs) (by decide)

/-- No name of the path means something of its own to an expression. -/
structure Plain : Prop where
  unnulled : Scope.nulledNames.contains p.first = false
  unfixed : (Scope.global? p.first).isNone
  unmethodical : ∀ name ∈ p.later, Value.isMethodName name = false

variable {p}

theorem Plain.valueAt_source (hp : p.Plain) {ctx : RenderContext} (hdata : Value.dataIn ctx.vars)
    (htime : ctx.ambient.expired = false) (hlimit : p.later.length < Expr.nestingLimit) :
    ((Value.map ctx.vars).atPath? p.source).map (·.getD .null) = .ok (Render.valueAt ctx p.source) := by
  have htree : Expr.ofTextWithin Expr.nestingLimit p.source = .ok p.tree := p.ofTextWithin_source 248
  have hdepth : ¬ Expr.nestingLimit < p.tree.depth := by
    rw [depth_tree]
    omega
  have hevaluate : Expr.evaluate ctx.surroundings p.source = p.tree.eval ctx.surroundings ⟨ctx.level, []⟩ := by
    simp only [Expr.evaluate, p.trim_source, htree, RenderContext.surroundings, htime, Bool.false_eq_true, if_false,
      if_neg hdepth]
  have hname := Expr.value_eval_name (s := ctx.surroundings) hp.unfixed hp.unnulled
  have hmap : (Value.map ctx.vars).isData := hdata
  have hindices : ∀ s ∈ p.first :: p.later, Value.index? s = .ok none := fun s hs =>
    Value.index?_of_isIdentifier (p.named s hs)
  have hvalue := Expr.value_eval_members hname (Value.isData_step hmap p.first) hp.unmethodical
    (List.forall_mem_cons.1 hindices).2 ⟨ctx.level, []⟩
  rw [Value.atPath?, splitAt_source, Value.follow?_map_getD hindices, Render.valueAt, hevaluate]
  exact congrArg Except.ok hvalue.symm

open Tag Render Template Variable

theorem plain_source (p : Dotted) : p.source.all isPlain := by
  refine List.all_eq_true.2 fun c hc => ?_
  rcases p.mem_source hc with h | rfl
  · rcases Bool.or_eq_true_iff.1 h with h | h
    · exact isPlain_of_isWordChar h
    · rw [eq_of_beq h]; decide
  · decide

theorem path?_source (p : Dotted) (hlater : p.later ≠ []) : path? p.source = some p.source := by
  have hlength : 2 ≤ (p.first :: p.later).length := by
    have := List.length_pos_iff.2 hlater
    simp only [List.length_cons]
    omega
  have hnamed : (p.first :: p.later).all (!·.isEmpty) = true := by
    refine List.all_eq_true.2 fun s hs => ?_
    have := p.named s hs
    cases s with
    | nil => cases this
    | cons c cs => rfl
  rw [path?, splitAt_source, hnamed, Bool.and_true, if_pos (decide_eq_true hlength)]

/-- Only the bare path is read as a path: blanks are none of its characters. -/
theorem eq_nil_of_inPath {t : Text} (hblank : t.all isBlank) (hpath : t.all inPath) : t = [] := by
  cases t with
  | nil => rfl
  | cons c cs =>
    rw [List.all_cons, Bool.and_eq_true] at hblank hpath
    have hword : inPath c = false := by
      rw [inPath, isWordChar_of_isBlank hblank.1, Bool.false_or, beq_eq_false_iff_ne]
      rintro rfl
      exact absurd hblank.1 (by decide)
    rw [hword] at hpath
    cases hpath.1

theorem readPath_body (p : Dotted) (hlater : p.later ≠ []) {lead trail : Text} (hlead : lead.all isBlank)
    (htrail : trail.all isBlank) :
    readPath (wrap (lead ++ (p.source ++ trail))) = none ∨
      lead ++ (p.source ++ trail) = p.source ∧ readPath (wrap p.source) = some (p.source, []) := by
  have hclosed := (notMem_of_plain (all_plain_between hlead p.plain_source htrail)).2.1
  cases hall : (lead ++ (p.source ++ trail)).all inPath with
  | false =>
    left
    rw [readPath_wrap_nil hclosed, hall]
    rfl
  | true =>
    rw [List.all_append, List.all_append, Bool.and_eq_true, Bool.and_eq_true] at hall
    obtain rfl := eq_nil_of_inPath hlead hall.1
    obtain rfl := eq_nil_of_inPath htrail hall.2.2
    rw [List.nil_append, List.append_nil] at hclosed
    refine .inr ⟨by rw [List.nil_append, List.append_nil], ?_⟩
    rw [readPath_wrap_nil hclosed, hall.2.1, if_pos rfl, p.path?_source hlater, Option.map_some]

theorem mem_point (p : Dotted) (hlater : p.later ≠ []) : '.' ∈ p.source := by
  obtain ⟨s, later, hs⟩ := List.exists_cons_of_ne_nil hlater
  simp [source, pointed, hs]

theorem formula (p : Dotted) (hlater : p.later ≠ []) : Formula p.source where
  plain := p.plain_source
  unspaced _ := p.isBlank_of_mem_source
  colonless := p.notMem_source (by decide) (by decide)
  wordless := ⟨'.', p.mem_point hlater, by decide⟩

/-- Written with blanks or without, a path shows one value. -/
theorem Plain.settles_substituteVariables (hp : p.Plain) {ctx : RenderContext} (hdata : Value.dataIn ctx.vars)
    (htime : ctx.ambient.expired = false) (hlimit : p.later.length < Expr.nestingLimit) (hlater : p.later ≠ [])
    (hkeys : ∀ key ∈ Scope.keys ctx.vars, '.' ∉ key) (hcalm : calm (valueAt ctx p.source).display)
    {lead trail : Text} (hlead : lead.all isBlank) (htrail : trail.all isBlank) :
    Settles (substituteVariables ctx (wrap (lead ++ (p.source ++ trail)))) (valueAt ctx p.source).showable
      (valueAt ctx p.source).display := by
  have hformula := p.formula hlater
  rcases p.readPath_body hlater hlead htrail with hpath | ⟨hbody, hpath⟩
  · refine hformula.settles_substituteVariables hlead htrail hpath fun key hm heq => hkeys key hm ?_
    exact mem_of_mem_trim (heq ▸ p.mem_point hlater)
  · obtain ⟨o, ho, hvalue⟩ := Except.map_eq_ok_iff.1 (hp.valueAt_source hdata htime hlimit)
    rw [← hvalue] at hcalm ⊢
    obtain ⟨hshown, hshowable⟩ := shown_wrap_of_path hpath ho hcalm
    rw [hbody, ← hshown, ← hshowable]
    exact settles_substituteVariables_wrap p.plain_source

/-- Following a path and evaluating it give one value. So its tag shows this value, with blanks around the path
or without, if no variable lends its name to a tag with a point and what is shown begins no tag. Only where a number
has too many digits to be shown, there is no page. -/
theorem followed_alike (p : Dotted) (hp : p.Plain) (ctx : RenderContext) (hdata : Value.dataIn ctx.vars)
    (htime : ctx.ambient.expired = false) (hlimit : p.later.length < Expr.nestingLimit) :
    ((Value.map ctx.vars).atPath? p.source).map (·.getD .null) = .ok (valueAt ctx p.source) ∧
      (p.later ≠ [] → (∀ key ∈ Scope.keys ctx.vars, '.' ∉ key) → '\x7b' ∉ (valueAt ctx p.source).display →
        ∀ lead trail : Text, lead.all isBlank → trail.all isBlank →
          Settles (substituteVariables ctx (wrap (lead ++ (p.source ++ trail)))) (valueAt ctx p.source).showable
            (valueAt ctx p.source).display) :=
  ⟨hp.valueAt_source hdata htime hlimit, fun hlater hkeys hcalm _ _ hlead htrail =>
    hp.settles_substituteVariables hdata htime hlimit hlater hkeys (calm_of_notMem hcalm) hlead htrail⟩

/-- `a.b.length` -/
def samplePath : Dotted := ⟨['a'], [['b'], ['l', 'e', 'n', 'g', 't', 'h']], by decide, by decide⟩

def sampleData : Entries :=
  [(.str ['a'], .map [(.nat 1, .null), (.str ['b'], .tuple [.str ['x'], .bool true])]), (.str ['c'], .host 0 ['o'])]

theorem followed_alike_sample :
    valueAt (sampleContext sampleData) samplePath.source = .nat 2 ∧
      Gives (substituteVariables (sampleContext sampleData) (wrap samplePath.source)) ['2'] ∧
      Gives (substituteVariables (sampleContext sampleData) (wrap ([' '] ++ (samplePath.source ++ ['\t'])))) ['2'] := by
  have hplain : samplePath.Plain := ⟨by decide, by decide, by decide⟩
  obtain ⟨hvalue, hshown⟩ := followed_alike samplePath hplain (sampleContext sampleData) rfl (by decide) (by decide)
  have htwo : valueAt (sampleContext sampleData) samplePath.source = .nat 2 := by
    have hpath : ((Value.map sampleData).atPath? samplePath.source).map (·.getD .null) = .ok (.nat 2) := by
      rw [Value.atPath?, splitAt_source]
      rfl
    exact Except.ok.inj (hvalue.symm.trans hpath)
  have hdisplay : (valueAt (sampleContext sampleData) samplePath.source).display = ['2'] := by
    rw [htwo]
    decide +kernel
  have hshowable : (valueAt (sampleContext sampleData) samplePath.source).showable = true := by
    rw [htwo]
    decide +kernel
  rw [hdisplay, hshowable] at hshown
  have hgives := hshown (by decide) (by decide) (by decide)
  exact ⟨htwo, by simpa using (hgives [] [] rfl rfl).gives rfl, (hgives [' '] ['\t'] (by decide) (by decide)).gives rfl⟩

end Dotted

end PageTemplate
