import PageTemplate.Proofs.Equality
import PageTemplate.Proofs.Priority
set_option autoImplicit false
/-!
What the typed view reads from a configuration that the schema admits. Every setting has a value of the kind that is
meant, but for a time: a whole number that no float is near to passes the schema and cannot be converted.
-/
namespace PageTemplate

namespace Binary

variable {b : Binary} {k : Int}

theorem whole?_eq_some (h : b.whole? = some k) :
    b.trunc = k ∧ (if b.negative then -(b.fraction.1 : Int) else b.fraction.1) = k * b.fraction.2 := by
  unfold whole? at h
  unfold trunc
  simp only at h ⊢
  split at h
  · next hdvd =>
    obtain rfl := Option.some.inj h
    have hnum : b.fraction.1 = b.fraction.1 / b.fraction.2 * b.fraction.2 :=
      (Nat.div_mul_cancel (Nat.dvd_of_mod_eq_zero hdvd)).symm
    refine ⟨rfl, ?_⟩
    split
    · rw [Int.neg_mul, ← Int.natCast_mul, ← hnum]
    · rw [← Int.natCast_mul, ← hnum]
  · cases h

theorem compareInt_of_whole? (h : b.whole? = some k) (n : Int) : b.compareInt n = compare n k := by
  have hpos : (0 : Int) < b.fraction.2 := by exact_mod_cast b.fraction_pos
  unfold compareInt
  simp only
  rw [(whole?_eq_some h).2]
  obtain hlt | heq | hgt := lt_trichotomy n k
  · rw [compare_lt_iff_lt.2 hlt, compare_lt_iff_lt]
    exact mul_lt_mul_of_pos_right hlt hpos
  · rw [heq, compare_eq_iff_eq.2 (rfl : k = k), compare_eq_iff_eq]
  · rw [compare_gt_iff_gt.2 hgt, compare_gt_iff_gt]
    exact mul_lt_mul_of_pos_right hgt hpos

end Binary

namespace Number

/-- The nearest float lies on the same side of zero. -/
theorem compareInt_zero_of_is {b : Binary} {n : Int} (hsign : b.negative = decide (n < 0))
    (h : b.Is (nearestNat n.natAbs) 1) : (b.compareInt 0).swap = compare n 0 := by
  have hpos : (0 : Int) < b.fraction.2 := by exact_mod_cast b.fraction_pos
  have hvalue : (b.fraction.1 : Int) = nearestNat n.natAbs * b.fraction.2 := by
    rw [Binary.Is, Nat.mul_one] at h
    exact_mod_cast h
  unfold Binary.compareInt
  simp only [hsign, Int.zero_mul, hvalue, decide_eq_true_eq]
  have hmagnitude (hn : n ≠ 0) : (0 : Int) < nearestNat n.natAbs * b.fraction.2 := by
    have hnearest := nearestNat_pos (Int.natAbs_pos.2 hn)
    exact Int.mul_pos (by exact_mod_cast hnearest) hpos
  obtain hlt | rfl | hgt := lt_trichotomy n 0
  · rw [if_pos hlt, compare_lt_iff_lt.2 hlt, compare_gt_iff_gt.2 (Int.neg_neg_of_pos (hmagnitude hlt.ne))]
    rfl
  · simp [show nearestNat 0 = 0 from rfl]
  · rw [if_neg hgt.not_gt, compare_gt_iff_gt.2 hgt, compare_lt_iff_lt.2 (hmagnitude hgt.ne')]
    rfl

theorem isNaN_notANumber : notANumber.isNaN = true := by decide +kernel

theorem below_of_not_atMost {x : Float} (h : (Number.float x).atMost (.whole 0) = false) :
    below (.whole 0) (.float x) = true := by
  simp only [atMost, below, equals, compare?] at h ⊢
  cases hcompare : compare?.compareIntFloat 0 x <;> simp_all

/-- A float made of a number compares with zero as the number does. -/
theorem compare?_toFloat {n : Number} {x : Float} (h : n.toFloat = .ok x) (hx : x.isNaN = false) :
    (Number.float x).compare? (.whole 0) = n.compare? (.whole 0) := by
  cases n with
  | float y => rw [Except.ok.inj h]
  | nan origin =>
    rw [← Except.ok.inj h, isNaN_notANumber] at hx
    cases hx
  | whole n =>
    by_cases hrange : InRange n.natAbs
    · obtain ⟨y, hy, b, hb, hsign, his⟩ := toFloat_whole_of_inRange hrange
      obtain rfl : y = x := Except.ok.inj (hy.symm.trans h)
      simp only [compare?, compare?.compareIntFloat, hb, compareInt_zero_of_is hsign his]
    · rw [toFloat_whole_of_not_inRange hrange] at h
      cases h

theorem exists_toFloat_iff {n : Number} : (∃ x, n.toFloat = .ok x) ↔ ∀ k, n = .whole k → InRange k.natAbs := by
  cases n with
  | float x => exact iff_of_true ⟨x, rfl⟩ nofun
  | nan origin => exact iff_of_true ⟨notANumber, rfl⟩ nofun
  | whole k =>
    refine ⟨fun ⟨x, hx⟩ k' hk' => ?_, fun h => ?_⟩
    · obtain rfl := Number.whole.inj hk'
      by_contra hrange
      nomatch (toFloat_whole_of_not_inRange hrange).symm.trans hx
    · obtain ⟨x, hx, -⟩ := toFloat_whole_of_inRange (h k rfl)
      exact ⟨x, hx⟩

end Number

namespace Config

namespace Schema

/-- The values that a schema without parts admits. -/
inductive Admits : Schema → Value → Prop
  | text {least : Nat} {t : Text} (hlength : least ≤ t.length) : Admits (.text least) (.str t)
  | choice {options : List Text} {t : Text} (hlisted : t ∈ options) : Admits (.choice options) (.str t)
  | someText (t : Text) : Admits .optionalText (.str t)
  | noText : Admits .optionalText .null
  | texts (ts : List Text) : Admits .texts (.list (ts.map .str))
  | whole {least k : Int} {n : Number} (hwhole : n.equals (.whole k)) (hconverts : n.toWhole Binary.trunc = .ok k)
    (hleast : least ≤ k) : Admits (.whole least) (.number n)
  | atLeast {bound : Int} {n : Number} (hbound : n.below (.whole bound) = false) : Admits (.atLeast bound) (.number n)
  | above {bound : Int} {n : Number} (hbound : n.atMost (.whole bound) = false) : Admits (.above bound) (.number n)

/-- The properties of a schema with parts. -/
def properties : Schema → List (Text × Schema)
  | .object properties _ _ => properties
  | _ => []

variable {v : Value}

theorem textItems_eq_nil {i : Nat} {vs : List Value} (h : textItems i vs = []) :
    ∃ ts : List Text, vs = ts.map .str := by
  induction vs generalizing i with
  | nil => exact ⟨[], rfl⟩
  | cons v vs ih =>
    cases v with
    | str t =>
      obtain ⟨ts, rfl⟩ := ih (i := i + 1) h
      exact ⟨t :: ts, rfl⟩
    | _ => cases h

theorem admits_whole {least : Int} {n : Number} (hkind : isWhole n = true) (hleast : n.below (.whole least) = false) :
    Admits (.whole least) (.number n) := by
  cases n with
  | whole k =>
    rw [Number.below_whole, decide_eq_false_iff_not, not_lt] at hleast
    exact .whole (by rw [Value.equals_whole, decide_eq_true_iff]) rfl hleast
  | nan origin => cases hkind
  | float x =>
    obtain ⟨k, hk⟩ := Option.isSome_iff_exists.1 hkind
    obtain ⟨b, hb, hk⟩ := Option.bind_eq_some_iff.1 hk
    have hcompare (m : Int) : (Number.float x).compare? (.whole m) = some (compare m k).swap := by
      simp only [Number.compare?, Number.compare?.compareIntFloat, hb, Binary.compareInt_of_whole? hk]
    refine .whole (k := k) ?_ ?_ ?_
    · rw [Number.equals, hcompare, compare_eq_iff_eq.2 rfl]
      rfl
    · simp [Number.toWhole, hb, (Binary.whole?_eq_some hk).1]
    · by_contra hlt
      rw [Number.below, hcompare, compare_gt_iff_gt.2 (not_le.1 hlt)] at hleast
      cases hleast

theorem admits_of_leafViolations {s : Schema} (h : leafViolations s v = []) : Admits s v := by
  unfold leafViolations at h
  split at h
  · exact .text (of_decide_eq_true (broken_eq_nil.1 h))
  · exact .choice (List.contains_iff_mem.1 (broken_eq_nil.1 h))
  · exact .someText _
  · exact .noText
  · obtain ⟨ts, rfl⟩ := textItems_eq_nil h
    exact .texts ts
  · split at h
    · next hkind => exact admits_whole hkind (by simpa using broken_eq_nil.1 h)
    · simp [broken] at h
  · exact .atLeast (by simpa using broken_eq_nil.1 h)
  · exact .above (by simpa using broken_eq_nil.1 h)
  · simp [broken] at h

theorem admits_of_violations {s : Schema} (h : s.violations v = [])
    (hleaf : ∀ properties required closed, s ≠ .object properties required closed) : Admits s v := by
  refine admits_of_leafViolations ?_
  cases s with
  | object properties required closed => exact absurd rfl (hleaf properties required closed)
  | _ => simpa [violations] using h

end Schema

/-- The value of a setting: what the configuration gives there, or something else if it gives nothing. -/
def setting (es : Entries) (part key : Text) (otherwise : Value) : Value :=
  (Override.at? [part, key] (.map es)).getD otherwise

/-- The path of a text starts from the project, unless the text is absolute. -/
def Resolves (project : Path) (t : Text) (p : Path) : Prop :=
  if Path.isAbsolute t then p = Path.ofText t
  else p.doubleSlash = project.doubleSlash ∧ p.segments = project.segments ++ Path.split t

def GivesPath (project : Path) (w : Value) (r : Setting Path) : Prop :=
  ∃ t p, w = .str t ∧ r = .ok p ∧ Resolves project t p

def GivesText (w : Value) (r : Setting Text) : Prop := ∃ t, w = .str t ∧ r = .ok t

/-- The number itself, at least one. -/
def GivesCount (w : Value) (r : Setting Int) : Prop :=
  ∃ (m : Number) (n : Int), w = .number m ∧ m.equals (.whole n) ∧ r = .ok n ∧ 1 ≤ n

/-- A float of the right size or a NaN, exactly if the value is no whole number beyond the floats. -/
def GivesTime (right : Number → Prop) (w : Value) (r : Setting Float) : Prop :=
  ((∃ x, r = .ok x ∧ (x.isNaN = false → right (.float x))) ↔ ∀ n, w = .int n → InRange n.natAbs) ∧
    ∀ n, w = .int n → ¬InRange n.natAbs → r = .error (.fault .tooLarge)

def GivesTexts (w : Value) (r : Setting (List Text)) : Prop := ∃ ts : List Text, w = .list (ts.map .str) ∧ r = .ok ts

def levels : List Text := ["DEBUG", "INFO", "WARNING", "ERROR", "CRITICAL"].map text

def GivesLevel (w : Value) (r : Setting Text) : Prop :=
  ∃ t, w = .str t ∧ r = .ok (toUpper t) ∧ toUpper t ∈ levels

/-- A path, or none where the value is missing or empty. -/
def GivesFile (project : Path) (w : Value) (r : Setting (Option Path)) : Prop :=
  (w = .null ∨ w = .str []) ∧ r = .ok none ∨
    ∃ t p, t ≠ [] ∧ w = .str t ∧ r = .ok (some p) ∧ Resolves project t p

theorem resolves_join (project : Path) (t : Text) : Resolves project t (project.join t) := by
  unfold Resolves Path.join
  split
  · rfl
  · exact ⟨rfl, rfl⟩

theorem mapM_plain (ts : List Text) : (ts.map Value.str).mapM Value.plain = .ok ts := by
  induction ts with
  | nil => rfl
  | cons t ts ih =>
    rw [List.map_cons, List.mapM_cons, ih]
    rfl

/-- A setting is read, and its schema admits what is read, if it admits what stands for nothing. -/
theorem lookup_of_schema {es : Entries} {part key : Text} {s parts : Schema} {otherwise : Value}
    (h : schema.violations (.map es) = []) (hpart : (part, parts) ∈ schema.properties)
    (hkey : (key, s) ∈ parts.properties) (hotherwise : s.violations otherwise = []) (project : Path) :
    (View.mk project (.map es)).lookup part key otherwise = .ok (setting es part key otherwise) ∧
      s.violations (setting es part key otherwise) = [] := by
  obtain ⟨_, ⟨⟩, -, hparts, -⟩ := Schema.object_ok h
  cases hsection : es.get? part with
  | none =>
    have hnothing : setting es part key otherwise = otherwise := by
      rw [setting, Override.at?_cons_cons, hsection]
      rfl
    rw [hnothing]
    refine ⟨?_, hotherwise⟩
    simp [View.lookup, View.section?, hsection, bind, Except.bind, pure, Except.pure, Entries.get?]
  | some v =>
    have hv := Schema.property_ok hparts hpart hsection
    cases parts with
    | object properties required closed =>
      obtain ⟨settings, rfl, -, hproperties, -⟩ := Schema.object_ok hv
      refine ⟨View.lookup_section hsection, ?_⟩
      rw [setting, Override.at?_cons_cons, hsection, Override.inside, Override.at?_singleton]
      cases hgiven : settings.get? key with
      | none => exact hotherwise
      | some w => exact Schema.property_ok hproperties hkey hgiven
    | _ => cases hkey

namespace Schema

/-- Is the value read, and admitted by the schema? -/
def Reads (s : Schema) (w : Value) (r : Setting Value) : Prop := r = .ok w ∧ s.Admits w

namespace Reads

variable {w : Value} {r : Setting Value}

theorem givesPath {least : Nat} (h : (text least).Reads w r) (v : View) : GivesPath v.project w (r >>= v.path) := by
  obtain ⟨rfl, hw⟩ := h
  cases hw
  exact ⟨_, _, rfl, rfl, resolves_join v.project _⟩

theorem givesText {least : Nat} (h : (text least).Reads w r) : GivesText w (r >>= fun w => convert w.plain) := by
  obtain ⟨rfl, hw⟩ := h
  cases hw
  exact ⟨_, rfl, rfl⟩

theorem givesCount (h : (whole 1).Reads w r) : GivesCount w (r >>= fun w => convert w.toBound) := by
  obtain ⟨rfl, hw⟩ := h
  cases hw with
  | @whole _ k n hwhole hconverts hleast =>
    refine ⟨n, k, rfl, hwhole, ?_, hleast⟩
    change convert (n.toWhole Binary.trunc) = _
    rw [hconverts]
    rfl

theorem givesTexts (h : texts.Reads w r) : GivesTexts w (r >>= fun w => convert (toTexts w)) := by
  obtain ⟨rfl, hw⟩ := h
  cases hw with
  | texts ts =>
    refine ⟨ts, rfl, ?_⟩
    change convert ((ts.map Value.str).mapM Value.plain) = _
    rw [mapM_plain]
    rfl

theorem givesLevel {options : List Text} (h : (choice options).Reads w r)
    (hoptions : ∀ t ∈ options, toUpper t ∈ levels) : GivesLevel w (r >>= fun w => return toUpper (← convert w.plain)) := by
  obtain ⟨rfl, hw⟩ := h
  cases hw with
  | @choice _ t hlisted => exact ⟨t, rfl, rfl, hoptions t hlisted⟩

theorem givesFile (h : optionalText.Reads w r) (v : View) :
    GivesFile v.project w (r >>= fun w => if w.truthy then return some (← v.path w) else return none) := by
  obtain ⟨rfl, hw⟩ := h
  cases hw with
  | noText => exact .inl ⟨.inl rfl, rfl⟩
  | someText t =>
    cases t with
    | nil => exact .inl ⟨.inr rfl, rfl⟩
    | cons c t => exact .inr ⟨c :: t, _, List.cons_ne_nil c t, rfl, rfl, resolves_join v.project (c :: t)⟩

end Reads

end Schema

theorem givesTime_number {right : Number → Prop} {n : Number}
    (hright : ∀ x, n.toFloat = .ok x → x.isNaN = false → right (.float x)) :
    GivesTime right (.number n) (convert (toReal (.number n))) := by
  have hwhole (k : Int) : Value.number n = .int k ↔ n = .whole k := by simp [Value.int]
  simp only [GivesTime, hwhole, toReal]
  rw [← Number.exists_toFloat_iff]
  refine ⟨⟨fun h => ?_, fun h => ?_⟩, fun k hk hrange => ?_⟩
  · obtain ⟨x, hx, -⟩ := h
    cases hn : n.toFloat with
    | ok y => exact ⟨y, rfl⟩
    | error f => rw [hn] at hx; cases hx
  · obtain ⟨x, hx⟩ := h
    exact ⟨x, by rw [hx]; rfl, hright x hx⟩
  · rw [hk, Number.toFloat_whole_of_not_inRange hrange]
    rfl

theorem Schema.Reads.givesTime_above {w : Value} {r : Setting Value} (h : (above 0).Reads w r) :
    GivesTime (fun x => Number.below (.whole 0) x = true) w (r >>= fun w => convert (toReal w)) := by
  obtain ⟨rfl, hw⟩ := h
  cases hw
  refine givesTime_number fun x hx hnan => Number.below_of_not_atMost ?_
  rwa [Number.atMost, Number.below, Number.equals, Number.compare?_toFloat hx hnan]

theorem Schema.Reads.givesTime_atLeast {w : Value} {r : Setting Value} (h : (atLeast 0).Reads w r) :
    GivesTime (fun x => Number.below x (.whole 0) = false) w (r >>= fun w => convert (toReal w)) := by
  obtain ⟨rfl, hw⟩ := h
  cases hw
  refine givesTime_number fun x hx hnan => ?_
  rwa [Number.below, Number.compare?_toFloat hx hnan]

/-- What each setting gives in a configuration, by the value that stands there. -/
structure Settled (v : View) (templating logging : String → Value → Value) : Prop where
  templateRoot : GivesPath v.project (templating "template_dir" (.str (text "templates"))) v.templateRoot
  customizeDir : GivesPath v.project (templating "customize_dir" (.str (text "customize"))) v.customizeDir
  outputDir : GivesPath v.project (templating "output_dir" (.str (text "dist"))) v.outputDir
  maxPasses : GivesCount (templating "max_passes" (.int 10)) v.maxPasses
  maxConditionalPasses : GivesCount (templating "max_conditional_passes" (.int 20)) v.maxConditionalPasses
  expressionTimeout : GivesTime (fun x => Number.below (.whole 0) x = true)
    (templating "expression_timeout_seconds" shortTime) v.expressionTimeout
  recentWriteTime : GivesTime (fun x => Number.below x (.whole 0) = false)
    (templating "recent_write_ttl_seconds" shortTime) v.recentWriteTime
  baseTemplateName : GivesText (templating "base_template_name" (.str (text "base.html"))) v.baseTemplateName
  entryMarker : GivesText (templating "entry_marker" (.str (text "<!-- @entry -->"))) v.entryMarker
  entryPriority : GivesTexts (templating "entry_priority" (.list [])) v.entryPriority
  doctype : GivesText (templating "doctype" (.str (text "<!DOCTYPE html>"))) v.doctype
  logLevel : GivesLevel (logging "level" (.str (text "INFO"))) v.logLevel
  logFile : GivesFile v.project (logging "file" .null) v.logFile

/-- In a configuration that passes the check every setting is settled. -/
theorem settled_of_check {es es' : Entries} (h : schema.check es = .ok es') (project : Path) :
    Settled ⟨project, .map es'⟩ (fun key => setting es' (text "templating") (text key))
      fun key => setting es' (text "logging") (text key) := by
  obtain ⟨rfl, hvalid⟩ := Schema.check_ok h
  -- A property is told by the place that it has in the schema.
  have hread {part key : Text} {s parts : Schema} {otherwise : Value} (i j : Nat)
      (hpart : schema.properties[i]? = some (part, parts)) (hkey : parts.properties[j]? = some (key, s))
      (hotherwise : s.violations otherwise = [])
      (hleaf : ∀ properties required closed, s ≠ .object properties required closed) :
      s.Reads (setting es' part key otherwise) ((View.mk project (.map es')).lookup part key otherwise) := by
    have hlookup := lookup_of_schema hvalid (List.mem_of_getElem? hpart) (List.mem_of_getElem? hkey) hotherwise project
    exact ⟨hlookup.1, Schema.admits_of_violations hlookup.2 hleaf⟩
  exact {
    templateRoot := (hread 0 0 rfl rfl rfl nofun).givesPath _
    customizeDir := (hread 0 1 rfl rfl rfl nofun).givesPath _
    outputDir := (hread 0 2 rfl rfl rfl nofun).givesPath _
    maxPasses := (hread 0 3 rfl rfl rfl nofun).givesCount
    maxConditionalPasses := (hread 0 4 rfl rfl rfl nofun).givesCount
    expressionTimeout := (hread 0 5 rfl rfl (by decide +kernel) nofun).givesTime_above
    recentWriteTime := (hread 0 6 rfl rfl (by decide +kernel) nofun).givesTime_atLeast
    baseTemplateName := (hread 0 7 rfl rfl rfl nofun).givesText
    entryMarker := (hread 0 8 rfl rfl rfl nofun).givesText
    entryPriority := (hread 0 9 rfl rfl rfl nofun).givesTexts
    doctype := (hread 0 10 rfl rfl rfl nofun).givesText
    logLevel := (hread 1 0 rfl rfl rfl nofun).givesLevel (by decide +kernel)
    logFile := (hread 1 1 rfl rfl rfl nofun).givesFile _ }

theorem settled_of_check_quick :
    schema.check (quick 5) = .ok (quick 5) ∧ (View.mk ⟨false, []⟩ (.map (quick 5))).maxPasses = .ok 5 ∧
      ∃ x, (View.mk ⟨false, []⟩ (.map (quick 5))).expressionTimeout = .ok x ∧
        (x.isNaN = false → Number.below (.whole 0) (.float x) = true) := by
  have hcheck : schema.check (quick 5) = .ok (quick 5) := rfl
  have hsettled := settled_of_check hcheck ⟨false, []⟩
  refine ⟨hcheck, rfl, hsettled.expressionTimeout.1.2 fun n hn => ?_⟩
  obtain rfl : 1 = n := Number.whole.inj (Value.number.inj hn)
  decide +kernel

/-- The least that a configuration has to give, with a time that an expression may take. -/
def patient (time : Int) : Entries := [
  entry "templating" (.map [
    entry "template_dir" (.str (text "templates")), entry "customize_dir" (.str (text "customize")),
    entry "max_passes" (.int 10), entry "max_conditional_passes" (.int 20),
    entry "expression_timeout_seconds" (.int time)])]

/-- A time that passes the check and is beyond the floats. -/
theorem expressionTimeout_patient :
    schema.check (patient (10 ^ 309)) = .ok (patient (10 ^ 309)) ∧
      (View.mk ⟨false, []⟩ (.map (patient (10 ^ 309)))).expressionTimeout = .error (.fault .tooLarge) := by
  have hviolations : schema.violations (.map (patient (10 ^ 309))) = [] := List.isEmpty_iff.1 (by decide +kernel)
  have hcheck : schema.check (patient (10 ^ 309)) = .ok (patient (10 ^ 309)) := by
    rw [Schema.check, hviolations]
    rfl
  have hread (time : Int) :
      (View.mk ⟨false, []⟩ (.map (patient time))).expressionTimeout = convert (toReal (.int time)) := rfl
  rw [hread, Value.int, toReal, Number.toFloat_whole_of_not_inRange (by decide +kernel)]
  exact ⟨hcheck, rfl⟩

end Config

end PageTemplate
