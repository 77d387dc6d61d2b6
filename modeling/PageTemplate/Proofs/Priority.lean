import PageTemplate.Config.Load
import PageTemplate.Config.View
import PageTemplate.Proofs.Overriding
import PageTemplate.Proofs.Place
import PageTemplate.Site.Include
set_option autoImplicit false
/-!
What a configuration reads for a setting of the templates that an environment variable overrides. The variable counts
as long as no other spelling of the section, or of the setting in it, comes last in the merged files; if one does, the
variable is written there and never read.
-/
namespace PageTemplate.Config

variable {es es' fs : Entries} {s t : Text} {p q : List Text} {v : Value}

/-! ### Keys of a merge -/

theorem mergeEntries_texts (es fs : Entries) : ∃ new, (mergeEntries es fs).texts = es.texts ++ new ∧
    ∀ t, t ∈ new ↔ t ∈ fs.texts ∧ t ∉ es.texts := by
  induction fs generalizing es with
  | nil => exact ⟨[], by simp [mergeEntries]⟩
  | cons e fs ih =>
    obtain ⟨k, v⟩ := e
    rw [mergeEntries]
    obtain ⟨new, hnew, hmem⟩ := ih (es.put k (mergeValue (es.find? k) v))
    obtain ⟨u, rfl⟩ | hother := k.str_or_ne
    · by_cases hu : u ∈ es.texts
      · rw [Entries.texts_put, if_pos hu] at hnew hmem
        refine ⟨new, hnew, fun t => ?_⟩
        rw [hmem, Entries.texts_cons_str, List.mem_cons]
        refine and_congr_left fun ht => ⟨.inr, fun h => h.resolve_left ?_⟩
        rintro rfl
        exact ht hu
      · rw [Entries.texts_put, if_neg hu] at hnew hmem
        refine ⟨u :: new, by rw [hnew, List.append_assoc, List.singleton_append], fun t => ?_⟩
        rw [List.mem_cons, hmem, Entries.texts_cons_str, List.mem_cons, List.mem_append, List.mem_singleton]
        by_cases ht : t = u
        · simp [ht, hu]
        · simp [ht]
    · rw [Entries.texts_put_of_ne hother] at hnew hmem
      exact ⟨new, hnew, by rwa [Entries.texts_cons_of_ne hother]⟩

/-- A name that the first side has in small letters only is spelled by itself unless the second side spells it in
other letters. -/
theorem spelling_deepMerge (hmem : s ∈ es.texts) (honly : ∀ t ∈ es.texts, toLower t = s → t = s) :
    Override.spelling s (deepMerge es fs) = s ↔ ∀ t ∈ fs.texts, toLower t = s → t = s := by
  obtain ⟨new, hnew, hmemnew⟩ := mergeEntries_texts es fs
  rw [Override.spelling_eq, deepMerge, hnew, List.reverse_append, List.find?_append]
  cases hfind : new.reverse.find? fun t => toLower t = s with
  | some t =>
    have ht : t ∈ new := List.mem_reverse.1 (List.mem_of_find?_eq_some hfind)
    have hlower : toLower t = s := by simpa using List.find?_some hfind
    obtain ⟨hfs, hes⟩ := (hmemnew t).1 ht
    have hne : t ≠ s := fun h => hes (h ▸ hmem)
    exact iff_of_false hne fun h => hne (h t hfs hlower)
  | none =>
    have hnone : ∀ t ∈ new, toLower t ≠ s := by simpa using hfind
    refine iff_of_true ?_ fun t ht hlower => ?_
    · cases hold : es.texts.reverse.find? fun t => toLower t = s with
      | none => rfl
      | some t =>
        exact honly t (List.mem_reverse.1 (List.mem_of_find?_eq_some hold)) (by simpa using List.find?_some hold)
    · by_contra hne
      exact hnone t ((hmemnew t).2 ⟨ht, fun hold => hne (honly t hold hlower)⟩) hlower

/-! ### The overrides of an environment -/

theorem nodup_eraseDups : ∀ names : List Text, names.eraseDups.Nodup
  | [] => by simp
  | name :: names => by
    rw [List.eraseDups_cons, List.nodup_cons]
    exact ⟨by simp [List.mem_eraseDups], nodup_eraseDups _⟩
termination_by names => names.length
decreasing_by
  have := List.length_filter_le (fun b => !b == name) names
  simp only [List.length_cons]
  omega

namespace Environment

variable {env : Environment} {e : Text × Text} {name : Text}

/-- An override is what a marked name has last. -/
theorem mem_overrides : e ∈ env.overrides ↔
    (after? Override.marker e.1).isSome ∧ env.reverse.lookup e.1 = some e.2 := by
  obtain ⟨name, raw⟩ := e
  have hlookup (h : (after? Override.marker name).isSome) :
      (env.reverse.filter fun e => (after? Override.marker e.1).isSome).lookup name = env.reverse.lookup name :=
    FileTree.lookup_filter (p := fun n => (after? Override.marker n).isSome) h env.reverse
  simp only [overrides, List.mem_filterMap, List.mem_mergeSort, List.mem_eraseDups, List.mem_map, List.mem_filter,
    Option.map_eq_some_iff, Prod.mk.injEq]
  constructor
  · rintro ⟨_, ⟨⟨n, w⟩, ⟨-, hmarked⟩, rfl⟩, raw', hraw, rfl, rfl⟩
    exact ⟨hmarked, hlookup hmarked ▸ hraw⟩
  · rintro ⟨hmarked, hraw⟩
    exact ⟨name, ⟨(name, raw), ⟨Include.mem_of_lookup hraw, hmarked⟩, rfl⟩, raw, (hlookup hmarked).trans hraw, rfl, rfl⟩

theorem nodup_overrides : (env.overrides.map (·.1)).Nodup := by
  have hnames (names : List Text) (f : Text → Option Text) :
      ((names.filterMap fun n => (f n).map (n, ·)).map (·.1)).Sublist names := by
    induction names with
    | nil => exact List.Sublist.refl _
    | cons n names ih =>
      cases hf : f n with
      | none => simpa [hf] using ih.cons n
      | some raw => simpa [hf] using ih
  unfold overrides
  exact ((List.mergeSort_perm _ _).nodup_iff.2 (nodup_eraseDups _)).sublist (hnames _ _)

/-- Every other override of the environment has its path elsewhere. -/
def Alone (env : Environment) (name : Text) (p : List Text) : Prop :=
  ∀ e ∈ env, (after? Override.marker e.1).isSome → e.1 ≠ name → ∀ q, Override.pathOf? e.1 = some q → Override.Apart p q

theorem Alone.overrides (h : env.Alone name p) (e : Text × Text) (he : e ∈ env.overrides) (hne : e.1 ≠ name)
    (q : List Text) (hq : Override.pathOf? e.1 = some q) : Override.Apart p q := by
  obtain ⟨hmarked, hraw⟩ := mem_overrides.1 he
  exact h e (List.mem_reverse.1 (Include.mem_of_lookup hraw)) hmarked hne q hq

end Environment

/-- The name of the variable that overrides a setting of the templates. -/
def templatingVariable (segment : Text) : Text := Override.marker ++ (text "TEMPLATING__" ++ segment)

def templatingPath (segment : Text) : List Text := [text "templating", toLower segment]

variable {segment raw : Text}

theorem marked_templatingVariable : (after? Override.marker (templatingVariable segment)).isSome :=
  Option.isSome_iff_exists.2 ⟨_, after?_eq_some_iff.2 rfl⟩

theorem pathOf?_templatingVariable (hne : segment ≠ []) (hwhole : ¬ ['_', '_'] <:+: segment) :
    Override.pathOf? (templatingVariable segment) = some (templatingPath segment) := by
  have hcut : cut? ['_', '_'] (text "TEMPLATING__" ++ segment) = some (text "TEMPLATING", segment) := by
    have hclear : Clear ['_', '_'] (text "TEMPLATING") (['_', '_'] ++ segment) := clear_of_head (by decide)
    exact (cut?_of_clear hclear).trans (by rw [cut?_self]; rfl)
  have hpieces : splitAt ['_', '_'] (text "TEMPLATING__" ++ segment) = [text "TEMPLATING", segment] := by
    rw [splitAt_of_cut? (by decide) hcut, splitAt_of_none (cut?_eq_none_iff.2 hwhole)]
  have hfirst : toLower (text "TEMPLATING") = text "templating" := by decide +kernel
  rw [Override.pathOf?, templatingVariable, List.drop_left, Override.path?, hpieces]
  simp [hne, templatingPath, hfirst]

/-! ### What the schema leaves -/

theorem Schema.nearest?_eq_none {vs : List Violation} : Schema.nearest? vs = none ↔ vs = [] := by
  have hsome (f : Option Violation → Violation → Option Violation) (hf : ∀ b v, f (some b) v ≠ none)
      (vs : List Violation) (b : Violation) : vs.foldl f (some b) ≠ none := by
    induction vs generalizing b with
    | nil => simp
    | cons v vs ih =>
      obtain ⟨b', hb'⟩ := Option.ne_none_iff_exists'.1 (hf b v)
      rw [List.foldl_cons, hb']
      exact ih b'
  cases vs with
  | nil => simp [nearest?]
  | cons v vs =>
    refine iff_of_false (hsome _ (fun b v => ?_) vs v) (List.cons_ne_nil v vs)
    dsimp only
    split <;> simp

theorem Schema.check_ok {schema : Schema} (h : schema.check es = .ok es') :
    es' = es ∧ schema.violations (.map es) = [] := by
  unfold check at h
  split at h
  · cases h
  · next hnone => exact ⟨(Except.ok.inj h).symm, nearest?_eq_none.1 hnone⟩

theorem Schema.broken_eq_nil {k : Keyword} {holds : Bool} : broken k holds = [] ↔ holds = true := by
  cases holds <;> simp [broken]

theorem Schema.texts_of_closed {properties : List Text} (h : hasExtra properties es = false) (ht : t ∈ es.texts) :
    t ∈ properties := by
  obtain ⟨⟨k, w⟩, hmem, hk⟩ := List.mem_filterMap.1 ht
  have hentry := List.any_eq_false.1 h (k, w) hmem
  cases k with
  | str u =>
    obtain rfl := Option.some.inj hk
    simpa using hentry
  | _ => cases hk

theorem Schema.property_ok {properties : List (Text × Schema)} {schema : Schema}
    (h : propertyViolations properties es = []) (hmem : (t, schema) ∈ properties) (hv : es.get? t = some v) :
    schema.violations v = [] := by
  induction properties with
  | nil => cases hmem
  | cons property properties ih =>
    obtain ⟨k, s⟩ := property
    rw [propertyViolations, List.append_eq_nil_iff] at h
    obtain ⟨hhere, hrest⟩ := h
    obtain hfirst | hlater := List.mem_cons.1 hmem
    · obtain ⟨rfl, rfl⟩ := Prod.mk.inj hfirst
      simpa [hv] using hhere
    · exact ih hrest hlater

theorem Schema.object_ok {properties : List (Text × Schema)} {required : List Text} {closed : Bool}
    (h : (object properties required closed).violations v = []) :
    ∃ es : Entries, v = .map es ∧ (∀ k ∈ required, (es.get? k).isSome) ∧ propertyViolations properties es = [] ∧
      (closed = true → ∀ t ∈ es.texts, t ∈ properties.map (·.1)) := by
  cases v with
  | map es =>
    rw [violations, List.append_eq_nil_iff, List.append_eq_nil_iff] at h
    obtain ⟨⟨hrequired, hproperties⟩, hextra⟩ := h
    refine ⟨es, rfl, List.all_eq_true.1 (broken_eq_nil.1 hrequired), hproperties, fun hclosed t ht => ?_⟩
    have hnone := broken_eq_nil.1 hextra
    exact texts_of_closed (by simpa [hclosed] using hnone) ht
  | _ => cases h

/-- Where the schema holds, only the spelling of the section counts. -/
theorem straight_of_schema (h : schema.violations (.map es) = [])
    (hsection : Override.spelling (text "templating") es = text "templating") :
    Override.Straight (templatingPath segment) (.map es) := by
  obtain ⟨_, ⟨⟩, hrequired, hproperties, -⟩ := Schema.object_ok h
  obtain ⟨v, hv⟩ := Option.isSome_iff_exists.1 (hrequired _ (List.mem_singleton.2 rfl))
  have hvalid := Schema.property_ok hproperties List.mem_cons_self hv
  obtain ⟨settings, rfl, -, -, hclosed⟩ := Schema.object_ok hvalid
  have hsmall : ∀ t ∈ settings.texts, toLower t = t := by
    intro t ht
    have hall : ∀ t ∈ (["template_dir", "customize_dir", "output_dir", "max_passes", "max_conditional_passes",
        "expression_timeout_seconds", "recent_write_ttl_seconds", "base_template_name", "entry_marker",
        "entry_priority", "doctype"].map text), toLower t = t := by
      decide +kernel
    exact hall t (hclosed rfl t ht)
  rw [templatingPath, Override.straight_cons_cons, hv]
  exact ⟨hsection, Override.straight_singleton.2 (Override.spelling_of_small hsmall)⟩

/-! ### What is read -/

namespace View

variable {root : Path} {part key : Text} {otherwise : Value}

theorem lookup_section {settings : Entries} (h : es.get? part = some (.map settings)) :
    (View.mk root (.map es)).lookup part key otherwise =
      .ok ((Override.at? [part, key] (.map es)).getD otherwise) := by
  rw [Override.at?_cons_cons, h, Override.inside, Override.at?_singleton]
  simp [lookup, section?, h, bind, Except.bind, pure, Except.pure]

theorem lookup_at? (h : Override.at? [part, key] (.map es) = some v) :
    (View.mk root (.map es)).lookup part key otherwise = .ok v := by
  obtain ⟨settings, hsettings⟩ : ∃ settings, es.get? part = some (.map settings) := by
    obtain ⟨w, hw, hkey⟩ := Option.bind_eq_some_iff.1 h
    cases w with
    | map settings => exact ⟨settings, hw⟩
    | _ => cases hkey
  rw [lookup_section hsettings, h, Option.getD_some]

theorem lookup_congr (h : es'.get? part = es.get? part) :
    (View.mk root (.map es')).lookup part key otherwise = (View.mk root (.map es)).lookup part key otherwise := by
  simp only [lookup, section?, h]

end View

theorem load_ok {project : Path} {file : Except Document.Failure Value} {env : Environment} {validated : Bool}
    (h : (load project file env validated).result = .ok es) :
    ∃ fs, fileEntries (project.join fileName) file = .ok fs ∧
      (Override.applyAll (deepMerge defaults fs) env.overrides).1 = .ok es ∧
      (validated = true → schema.violations (.map es) = []) := by
  unfold load at h
  split at h
  · cases h
  · next fs hfs =>
    dsimp only at h
    refine ⟨fs, hfs, ?_⟩
    cases validated with
    | false => exact ⟨h, nofun⟩
    | true =>
      rw [if_pos rfl] at h
      cases happlied : (Override.applyAll (deepMerge defaults fs) env.overrides).1 with
      | error e => rw [happlied] at h; cases h
      | ok merged =>
        rw [happlied] at h
        obtain ⟨rfl, hvalid⟩ := Schema.check_ok h
        exact ⟨rfl, fun _ => hvalid⟩

/-- Laid over the defaults, a project file leaves the override of a setting its way. -/
def Overridable (fs : Entries) (segment : Text) : Prop :=
  Override.Straight (templatingPath segment) (.map (deepMerge defaults fs))

/-- What is read at a setting of the templates whose variable is set, if no other override has to do with it. -/
theorem load_override {project : Path} {file : Except Document.Failure Value} {env : Environment} {validated : Bool}
    (hload : (load project file env validated).result = .ok es) (hne : segment ≠ [])
    (hwhole : ¬ ['_', '_'] <:+: segment) (hset : env.reverse.lookup (templatingVariable segment) = some raw)
    (halone : env.Alone (templatingVariable segment) (templatingPath segment)) :
    ∃ fs v, fileEntries (project.join fileName) file = .ok fs ∧ Override.value raw = .ok v ∧
      (Overridable fs segment → ∀ root otherwise,
        (View.mk root (.map es)).lookup (text "templating") (toLower segment) otherwise = .ok v) ∧
      (¬ Overridable fs segment → ∀ root otherwise,
        (View.mk root (.map es)).lookup (text "templating") (toLower segment) otherwise =
          (View.mk root (.map (deepMerge defaults fs))).lookup (text "templating") (toLower segment) otherwise) ∧
      (validated = true →
        (Overridable fs segment ↔ ∀ t ∈ fs.texts, toLower t = text "templating" → t = text "templating")) := by
  have hname := pathOf?_templatingVariable hne hwhole
  obtain ⟨-, hlower⟩ := Override.pathOf?_shape hname
  have hmem : (templatingVariable segment, raw) ∈ env.overrides :=
    Environment.mem_overrides.2 ⟨marked_templatingVariable, hset⟩
  obtain ⟨fs, hfs, happlied, hchecked⟩ := load_ok hload
  obtain ⟨v, hvalue⟩ := Override.applyAll_value happlied hmem hname
  have hsection : Override.spelling (text "templating") es =
      Override.spelling (text "templating") (deepMerge defaults fs) := Override.applyAll_spelling happlied
  -- A path that is not straight is passed by every override, its own included.
  have hpassed (h : ¬ Overridable fs segment) := Override.applyAll_frame happlied hlower fun e he q hq => by
    by_cases hsame : e.1 = templatingVariable segment
    · obtain rfl := Option.some.inj (hname.symm.trans (hsame ▸ hq))
      exact ⟨fun _ => rfl, fun _ => h⟩
    · exact (halone.overrides e he hsame q hq).passes
  refine ⟨fs, v, hfs, hvalue, fun h root otherwise => ?_, fun h root otherwise => ?_, fun hvalidated => ?_⟩
  · obtain ⟨w, hw, hat⟩ := Override.applyAll_at? happlied hmem Environment.nodup_overrides hname h halone.overrides
    obtain rfl := Except.ok.inj (hvalue.symm.trans hw)
    exact View.lookup_at? hat
  · by_cases htop : Override.spelling (text "templating") (deepMerge defaults fs) = text "templating"
    · -- The section is read, but the setting in it is spelled in other letters.
      obtain ⟨hat, hstraight⟩ := hpassed h
      obtain ⟨before, hbefore⟩ := Override.section_of_not_straight htop h
      obtain ⟨after, hafter⟩ := Override.section_of_not_straight (hsection.trans htop) (mt hstraight.1 h)
      rw [View.lookup_section hbefore, View.lookup_section hafter]
      exact congrArg (fun v => Except.ok (v.getD otherwise)) hat
    · -- The section that is written is another one.
      exact View.lookup_congr (Override.applyAll_get? happlied (hlower _ List.mem_cons_self) htop)
  · have hspelling : Override.spelling (text "templating") (deepMerge defaults fs) = text "templating" ↔ _ :=
      spelling_deepMerge List.mem_cons_self (by decide +kernel)
    rw [← hspelling]
    refine ⟨fun h => (Override.straight_cons_cons.1 h).1, fun h => ?_⟩
    by_contra hbent
    exact hbent ((hpassed hbent).2.1 (straight_of_schema (hchecked hvalidated) (hsection.trans h)))

/-- A variable that is set alone is written at its path. -/
theorem load_alone {project : Path} {file : Except Document.Failure Value} {validated : Bool}
    (hfs : fileEntries (project.join fileName) file = .ok fs) (hne : segment ≠ []) (hwhole : ¬ ['_', '_'] <:+: segment)
    (hvalue : Override.value raw = .ok v) :
    (load project file [(templatingVariable segment, raw)] validated).result =
      if validated then schema.check (Override.setAt v (templatingPath segment) (deepMerge defaults fs))
      else .ok (Override.setAt v (templatingPath segment) (deepMerge defaults fs)) := by
  have hoverrides : Environment.overrides [(templatingVariable segment, raw)] =
      [(templatingVariable segment, raw)] := by
    simp [Environment.overrides, marked_templatingVariable, List.eraseDups_cons]
  have hpath := pathOf?_templatingVariable hne hwhole
  rw [Override.pathOf?] at hpath
  unfold load
  rw [hfs, hoverrides]
  simp only [Override.applyAll, hpath, hvalue]
  rfl

/-- A project file that gives its times in whole seconds. -/
def quickFile : Entries := [
  entry "templating" (.map [entry "expression_timeout_seconds" (.int 1), entry "recent_write_ttl_seconds" (.int 1)])]

/-- The defaults under that file, with a number of passes. -/
def quick (passes : Int) : Entries := [
  entry "templating" (.map [
    entry "template_dir" (.str (text "templates")), entry "customize_dir" (.str (text "customize")),
    entry "output_dir" (.str (text "dist")), entry "max_passes" (.int passes),
    entry "max_conditional_passes" (.int 20), entry "expression_timeout_seconds" (.int 1),
    entry "recent_write_ttl_seconds" (.int 1), entry "base_template_name" (.str (text "base.html")),
    entry "entry_marker" (.str (text "<!-- @entry -->")),
    entry "entry_priority" (words ["index.html", "main.html", "home.html"]),
    entry "doctype" (.str (text "<!DOCTYPE html>"))]),
  entry "logging" (.map [entry "level" (.str (text "INFO")), entry "file" .null])]

theorem value_five : Override.value (text "5") = .ok (.int 5) := by rfl

theorem load_override_quick :
    (load ⟨false, []⟩ (.ok (.map quickFile)) [(templatingVariable (text "MAX_PASSES"), text "5")] true).result =
        .ok (quick 5) ∧
      ∀ root otherwise, (View.mk root (.map (quick 5))).lookup (text "templating") (toLower (text "MAX_PASSES"))
        otherwise = .ok (.int 5) := by
  have hload : (load ⟨false, []⟩ (.ok (.map quickFile)) [(templatingVariable (text "MAX_PASSES"), text "5")]
      true).result = .ok (quick 5) := by
    have hmerged : deepMerge defaults quickFile = quick 10 := by rfl
    have hset : Override.setAt (.int 5) (templatingPath (text "MAX_PASSES")) (quick 10) = quick 5 := by rfl
    have hfs : fileEntries (Path.join ⟨false, []⟩ fileName) (.ok (.map quickFile)) = .ok quickFile := rfl
    refine (load_alone hfs (by decide) (by decide +kernel) value_five).trans ?_
    rw [if_pos rfl, hmerged, hset]
    rfl
  have hset : List.lookup (templatingVariable (text "MAX_PASSES"))
      [(templatingVariable (text "MAX_PASSES"), text "5")].reverse = some (text "5") := by
    simp
  obtain ⟨fs, v, hfs, hvalue, hread, -, hspelled⟩ := load_override hload (by decide) (by decide +kernel) hset
    (by simp [Environment.Alone])
  obtain rfl := Except.ok.inj (value_five.symm.trans hvalue)
  obtain rfl : quickFile = fs := Except.ok.inj hfs
  exact ⟨hload, hread ((hspelled rfl).2 (by decide +kernel))⟩

/-- A section in other letters takes the override, and the setting keeps what it was. -/
theorem load_override_shouted :
    (load ⟨false, []⟩ (.ok (.map (quickFile ++ [entry "TEMPLATING" (.map [])])))
        [(templatingVariable (text "MAX_PASSES"), text "5")] true).result =
        .ok (quick 10 ++ [entry "TEMPLATING" (.map [entry "max_passes" (.int 5)])]) ∧
      Override.value (text "5") = .ok (.int 5) ∧
      ∀ root otherwise, (View.mk root
        (.map (quick 10 ++ [entry "TEMPLATING" (.map [entry "max_passes" (.int 5)])]))).lookup (text "templating")
          (toLower (text "MAX_PASSES")) otherwise = .ok (.int 10) := by
  refine ⟨?_, value_five, fun root otherwise => View.lookup_at? (by rfl)⟩
  have hmerged : deepMerge defaults (quickFile ++ [entry "TEMPLATING" (.map [])]) =
      quick 10 ++ [entry "TEMPLATING" (.map [])] := by
    rfl
  have hset : Override.setAt (.int 5) (templatingPath (text "MAX_PASSES"))
      (quick 10 ++ [entry "TEMPLATING" (.map [])]) =
        quick 10 ++ [entry "TEMPLATING" (.map [entry "max_passes" (.int 5)])] := by
    rfl
  have hfs : fileEntries (Path.join ⟨false, []⟩ fileName) (.ok (.map (quickFile ++ [entry "TEMPLATING" (.map [])]))) =
    .ok (quickFile ++ [entry "TEMPLATING" (.map [])]) := rfl
  refine (load_alone hfs (by decide) (by decide +kernel) value_five).trans ?_
  rw [if_pos rfl, hmerged, hset]
  rfl

end PageTemplate.Config
