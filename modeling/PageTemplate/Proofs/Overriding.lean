import PageTemplate.Config.Override
import PageTemplate.Proofs.Casing
import PageTemplate.Proofs.Search
set_option autoImplicit false
/-!
Writes along paths. A write finds its way by keys in any letters, while reading follows the very names of a path: what
is written is read back where every name on the path is spelled by itself, and otherwise the write goes past the path
and leaves it as it was.
-/
namespace PageTemplate

theorem Value.alike_str {k : Value} {t : Text} : k.alike (.str t) = true ↔ k = .str t := by
  cases k <;> simp [Value.alike]

theorem Value.str_or_ne (k : Value) : (∃ t, k = .str t) ∨ ∀ t, k ≠ .str t := by
  cases k with
  | str t => exact .inl ⟨t, rfl⟩
  | _ => exact .inr nofun

namespace Entries

/-- The keys that are texts, in order. -/
def texts (es : Entries) : List Text :=
  es.filterMap fun e =>
    match e.1 with
    | .str t => some t
    | _ => none

variable {es : Entries} {key t : Text} {v : Value}

@[simp] theorem texts_nil : texts [] = [] := rfl

@[simp] theorem texts_cons_str : texts ((.str t, v) :: es) = t :: texts es := rfl

theorem texts_cons_of_ne {k : Value} (h : ∀ t, k ≠ .str t) : texts ((k, v) :: es) = texts es := by
  cases k <;> first | rfl | exact absurd rfl (h _)

theorem get?_cons_of_ne {k : Value} (h : k ≠ .str t) : get? t ((k, v) :: es) = get? t es := by
  cases k with
  | str u => exact if_neg fun hu => h (by rw [hu])
  | _ => rfl

theorem get?_put : (es.put (.str key) v).get? t = if t = key then some v else es.get? t := by
  induction es with
  | nil => simp [put, get?, eq_comm]
  | cons e es ih =>
    obtain ⟨k, w⟩ := e
    by_cases hk : k = .str key
    · subst hk
      rw [put, if_pos (Value.alike_str.2 rfl)]
      by_cases ht : t = key
      · simp [get?, ht]
      · simp [get?, ht, Ne.symm ht]
    · rw [put, if_neg (by rwa [Value.alike_str])]
      by_cases ht : k = .str t
      · subst ht
        have hne : t ≠ key := fun h => hk (by rw [h])
        simp [get?, hne]
      · rw [get?_cons_of_ne ht, get?_cons_of_ne ht, ih]

theorem texts_put : (es.put (.str key) v).texts = if key ∈ es.texts then es.texts else es.texts ++ [key] := by
  induction es with
  | nil => simp [put]
  | cons e es ih =>
    obtain ⟨k, w⟩ := e
    by_cases hk : k = .str key
    · subst hk
      rw [put, if_pos (Value.alike_str.2 rfl)]
      simp
    · rw [put, if_neg (by rwa [Value.alike_str])]
      obtain ⟨u, rfl⟩ | hother := k.str_or_ne
      · have hne : key ≠ u := fun h => hk (by rw [h])
        simp only [texts_cons_str, ih, List.mem_cons, hne, false_or]
        split <;> rfl
      · rw [texts_cons_of_ne hother, texts_cons_of_ne hother, ih]

theorem texts_put_of_ne {k : Value} (h : ∀ u, k ≠ .str u) : (es.put k v).texts = es.texts := by
  induction es with
  | nil => exact texts_cons_of_ne h
  | cons e es ih =>
    obtain ⟨k', w⟩ := e
    unfold put
    split
    · next halike =>
      have hother : ∀ u, k' ≠ .str u := by
        rintro u rfl
        cases k <;> first | exact absurd rfl (h _) | cases halike
      rw [texts_cons_of_ne hother, texts_cons_of_ne hother]
    · obtain ⟨u, rfl⟩ | hother := k'.str_or_ne
      · rw [texts_cons_str, texts_cons_str, ih]
      · rw [texts_cons_of_ne hother, texts_cons_of_ne hother, ih]

end Entries

namespace Config.Override

variable {es fs : Entries} {s s' t : Text} {p q : List Text} {v : Value}

theorem spelling_eq (s : Text) (es : Entries) :
    spelling s es = (es.texts.reverse.find? fun t => toLower t = s).getD s := by
  have hfind (f : Value × Value → Option Text) (hstr : ∀ t w, f (.str t, w) = if toLower t = s then some t else none)
      (hother : ∀ k w, (∀ t, k ≠ .str t) → f (k, w) = none) (fs : Entries) :
      fs.findSome? f = fs.texts.find? fun t => toLower t = s := by
    induction fs with
    | nil => rfl
    | cons e fs ih =>
      obtain ⟨k, w⟩ := e
      obtain ⟨u, rfl⟩ | hne := k.str_or_ne
      · by_cases hu : toLower u = s
        · simp [hstr, hu]
        · simp [hstr, hu, ih]
      · rw [List.findSome?_cons_of_isNone (by simp [hother k w hne]), ih, Entries.texts_cons_of_ne hne]
  have hreverse : es.texts.reverse = Entries.texts es.reverse := List.filterMap_reverse.symm
  rw [hreverse, spelling, hfind _ (fun _ _ => rfl) fun k w hk => ?_]
  cases k <;> first | rfl | exact absurd rfl (hk _)

theorem toLower_spelling (hs : toLower s = s) (es : Entries) : toLower (spelling s es) = s := by
  rw [spelling_eq]
  cases hfind : es.texts.reverse.find? fun t => toLower t = s with
  | none => exact hs
  | some t => simpa using List.find?_some hfind

theorem spelling_of_small (h : ∀ t ∈ es.texts, toLower t = t) : spelling s es = s := by
  rw [spelling_eq]
  cases hfind : es.texts.reverse.find? fun t => toLower t = s with
  | none => rfl
  | some t =>
    have hlower : toLower t = s := by simpa using List.find?_some hfind
    rw [← hlower, Option.getD_some, h t (List.mem_reverse.1 (List.mem_of_find?_eq_some hfind))]

/-- A write to the key that some name spells leaves the spelling of every name. -/
theorem spelling_put (hs' : toLower s' = s') : spelling s (es.put (.str (spelling s' es)) v) = spelling s es := by
  rw [spelling_eq s (es.put _ v), Entries.texts_put]
  split
  · exact (spelling_eq s es).symm
  · rw [List.reverse_append, List.reverse_singleton, List.singleton_append, List.find?_cons]
    by_cases hlower : toLower (spelling s' es) = s
    · obtain rfl : s' = s := (toLower_spelling hs' es).symm.trans hlower
      simp [hlower]
    · simp [hlower, spelling_eq s es]

/-- What stands at a path of the very names. -/
def at? : List Text → Value → Option Value
  | [], v => some v
  | s :: ss, .map es => (Entries.get? s es).bind (at? ss)
  | _ :: _, _ => none

/-- Every name on the path, as far as there are mappings, is spelled by itself. -/
def Straight : List Text → Value → Prop
  | s :: ss, .map es => spelling s es = s ∧ ∀ v, Entries.get? s es = some v → Straight ss v
  | _, _ => True

/-- The entries that a write goes on in. -/
def inside : Option Value → Entries
  | some (.map es) => es
  | _ => []

theorem setAt_cons_cons : setAt v (s :: t :: p) es =
    es.put (.str (spelling s es)) (.map (setAt v (t :: p) (inside (es.get? (spelling s es))))) := rfl

theorem at?_singleton : at? [s] (.map es) = es.get? s := by simp [at?]

theorem at?_cons_cons : at? (s :: t :: p) (.map es) = at? (t :: p) (.map (inside (es.get? s))) := by
  rw [at?]
  obtain _ | w := es.get? s
  · rfl
  · cases w <;> rfl

theorem straight_singleton : Straight [s] (.map es) ↔ spelling s es = s := by simp [Straight]

theorem straight_cons_cons :
    Straight (s :: t :: p) (.map es) ↔ spelling s es = s ∧ Straight (t :: p) (.map (inside (es.get? s))) := by
  have hnil : Straight (t :: p) (.map []) := ⟨rfl, nofun⟩
  have hinside : ∀ o : Option Value, (∀ w, o = some w → Straight (t :: p) w) ↔ Straight (t :: p) (.map (inside o)) := by
    intro o
    obtain _ | w := o
    · exact iff_of_true nofun hnil
    · cases w with
      | map gs => simp [inside]
      | _ => exact iff_of_true (by rintro _ ⟨⟩; trivial) hnil
  rw [Straight, hinside]

/-- Only in a mapping can a name be spelled in other letters. -/
theorem section_of_not_straight (hs : spelling s es = s) (h : ¬ Straight [s, t] (.map es)) :
    ∃ fs, es.get? s = some (.map fs) := by
  rw [straight_cons_cons, and_iff_right hs] at h
  cases hget : es.get? s with
  | none => exact absurd (straight_singleton.2 rfl) (hget ▸ h)
  | some w =>
    rw [hget] at h
    cases w with
    | map fs => exact ⟨fs, rfl⟩
    | _ => exact absurd (straight_singleton.2 rfl) h

/-- A write goes to a key that its first name spells. -/
theorem setAt_eq_put (v : Value) (s : Text) (p : List Text) (es : Entries) :
    ∃ w, setAt v (s :: p) es = es.put (.str (spelling s es)) w := by
  cases p with
  | nil => exact ⟨v, rfl⟩
  | cons t p => exact ⟨_, setAt_cons_cons⟩

theorem spelling_setAt (hq : ∀ s ∈ q, toLower s = s) : spelling s (setAt v q es) = spelling s es := by
  cases q with
  | nil => rfl
  | cons t q =>
    obtain ⟨w, hput⟩ := setAt_eq_put v t q es
    rw [hput, spelling_put (hq _ List.mem_cons_self)]

/-- What is written at a straight path stands there. -/
theorem at?_setAt (hp : p ≠ []) (h : Straight p (.map es)) : at? p (.map (setAt v p es)) = some v := by
  induction p generalizing es with
  | nil => exact absurd rfl hp
  | cons s p ih =>
    cases p with
    | nil => rw [at?_singleton, setAt, straight_singleton.1 h, Entries.get?_put, if_pos rfl]
    | cons t p =>
      obtain ⟨hspelling, hbelow⟩ := straight_cons_cons.1 h
      rw [setAt_cons_cons, hspelling, at?_cons_cons, Entries.get?_put, if_pos rfl]
      exact ih (List.cons_ne_nil t p) hbelow

/-- A write along the second path passes the first: it neither ends on the way to the place nor comes there straight. -/
def Passes (es : Entries) (p q : List Text) : Prop := (q <+: p → q = p) ∧ (p <+: q → ¬ Straight p (.map es))

theorem Passes.below {t' : Text} (h : Passes es (s :: t :: p) (s :: t' :: q)) (hs : spelling s es = s) :
    Passes (inside (es.get? s)) (t :: p) (t' :: q) :=
  ⟨fun hthrough => (List.cons.inj (h.1 ((List.prefix_cons_inj s).2 hthrough))).2,
    fun hdown hstraight => h.2 ((List.prefix_cons_inj s).2 hdown) (straight_cons_cons.2 ⟨hs, hstraight⟩)⟩

/-- A write that passes a path leaves what stands there. -/
theorem setAt_frame (hp : ∀ s ∈ p, toLower s = s) (hq : ∀ s ∈ q, toLower s = s) (hpasses : Passes es p q) :
    at? p (.map (setAt v q es)) = at? p (.map es) ∧ (Straight p (.map (setAt v q es)) ↔ Straight p (.map es)) := by
  induction q generalizing p es with
  | nil => exact ⟨rfl, Iff.rfl⟩
  | cons s' q ih =>
    cases p with
    | nil => exact absurd trivial (hpasses.2 List.nil_prefix)
    | cons s p =>
      have hspelling : spelling s (setAt v (s' :: q) es) = spelling s es := spelling_setAt hq
      -- The write goes on below the first name of the path, or beside it.
      by_cases hkey : spelling s' es = s
      · have hs : s' = s := by
          rw [← toLower_spelling (hq s' List.mem_cons_self) es, hkey, hp s List.mem_cons_self]
        subst hs
        have hp' : p ≠ [] := by
          rintro rfl
          exact hpasses.2 (List.prefix_append [s'] q) (straight_singleton.2 hkey)
        obtain ⟨t, p, rfl⟩ := List.exists_cons_of_ne_nil hp'
        cases q with
        | nil => exact absurd (hpasses.1 (List.prefix_append [s'] _)) (by simp)
        | cons t' q =>
          have hget : (setAt v (s' :: t' :: q) es).get? s' =
              some (.map (setAt v (t' :: q) (inside (es.get? s')))) := by
            rw [setAt_cons_cons, hkey, Entries.get?_put, if_pos rfl]
          rw [at?_cons_cons, at?_cons_cons, straight_cons_cons, straight_cons_cons, hget, hspelling]
          obtain ⟨hat, hstraight⟩ := ih (fun u hu => hp u (List.mem_cons_of_mem _ hu))
            (fun u hu => hq u (List.mem_cons_of_mem _ hu)) (hpasses.below hkey)
          exact ⟨hat, and_congr_right fun _ => hstraight⟩
      · obtain ⟨w, hput⟩ := setAt_eq_put v s' q es
        have hget : (setAt v (s' :: q) es).get? s = es.get? s := by
          rw [hput, Entries.get?_put, if_neg (Ne.symm hkey)]
        simp only [at?, Straight, hget, hspelling, and_self]

/-! ### Overrides in turn -/

variable {es' : Entries} {vars before after : List (Text × Text)} {name raw : Text}

/-- The path that the name of an override spells. -/
def pathOf? (name : Text) : Option (List Text) := path? (name.drop marker.length)

theorem pathOf?_shape (h : pathOf? name = some q) : q ≠ [] ∧ ∀ s ∈ q, toLower s = s := by
  unfold pathOf? path? at h
  dsimp only at h
  split at h
  · cases h
  · obtain rfl := Option.some.inj h
    refine ⟨by simpa using splitAt_ne_nil _ _, fun s hs => ?_⟩
    obtain ⟨segment, -, rfl⟩ := List.mem_map.1 hs
    exact toLower_toLower segment

theorem applyAll_of_none (h : pathOf? name = none) : (applyAll es ((name, raw) :: vars)).1 = (applyAll es vars).1 := by
  rw [pathOf?] at h
  simp only [applyAll, h]

theorem applyAll_of_some (h : pathOf? name = some q) (hv : value raw = .ok v) :
    (applyAll es ((name, raw) :: vars)).1 = (applyAll (setAt v q es) vars).1 := by
  rw [pathOf?] at h
  simp only [applyAll, h, hv]

theorem applyAll_cons (h : (applyAll es ((name, raw) :: vars)).1 = .ok es') :
    (pathOf? name = none ∧ (applyAll es vars).1 = .ok es') ∨
      ∃ q v, pathOf? name = some q ∧ value raw = .ok v ∧ (applyAll (setAt v q es) vars).1 = .ok es' := by
  cases hpath : pathOf? name with
  | none => exact .inl ⟨rfl, (applyAll_of_none hpath).symm.trans h⟩
  | some q =>
    cases hvalue : value raw with
    | ok v => exact .inr ⟨q, v, rfl, rfl, (applyAll_of_some hpath hvalue).symm.trans h⟩
    | error e =>
      rw [pathOf?] at hpath
      simp [applyAll, hpath, hvalue] at h

theorem applyAll_append (h : (applyAll es (before ++ after)).1 = .ok es') :
    ∃ mid, (applyAll es before).1 = .ok mid ∧ (applyAll mid after).1 = .ok es' := by
  induction before generalizing es with
  | nil => exact ⟨es, rfl, h⟩
  | cons e before ih =>
    obtain ⟨hpath, hrest⟩ | ⟨q, v, hpath, hvalue, hrest⟩ := applyAll_cons h
    · obtain ⟨mid, hmid, hafter⟩ := ih hrest
      exact ⟨mid, (applyAll_of_none hpath).trans hmid, hafter⟩
    · obtain ⟨mid, hmid, hafter⟩ := ih hrest
      exact ⟨mid, (applyAll_of_some hpath hvalue).trans hmid, hafter⟩

theorem applyAll_split (h : (applyAll es (before ++ (name, raw) :: after)).1 = .ok es')
    (hname : pathOf? name = some p) :
    ∃ mid v, value raw = .ok v ∧ (applyAll es before).1 = .ok mid ∧ (applyAll (setAt v p mid) after).1 = .ok es' := by
  obtain ⟨mid, hmid, hend⟩ := applyAll_append h
  obtain ⟨hnone, -⟩ | ⟨q, v, hpath, hvalue, hlast⟩ := applyAll_cons hend
  · cases hname.symm.trans hnone
  · obtain rfl := Option.some.inj (hname.symm.trans hpath)
    exact ⟨mid, v, hvalue, hmid, hlast⟩

theorem applyAll_value (h : (applyAll es vars).1 = .ok es') (hmem : (name, raw) ∈ vars)
    (hname : pathOf? name = some p) : ∃ v, value raw = .ok v := by
  obtain ⟨before, after, rfl⟩ := List.append_of_mem hmem
  obtain ⟨-, v, hvalue, -⟩ := applyAll_split h hname
  exact ⟨v, hvalue⟩

theorem applyAll_spelling (h : (applyAll es vars).1 = .ok es') : spelling s es' = spelling s es := by
  induction vars generalizing es with
  | nil => rw [Except.ok.inj h]
  | cons e vars ih =>
    obtain ⟨-, hrest⟩ | ⟨q, v, hpath, -, hrest⟩ := applyAll_cons h
    · exact ih hrest
    · rw [ih hrest, spelling_setAt (pathOf?_shape hpath).2]

/-- Overrides that all pass a path leave what stands there. -/
theorem applyAll_frame (h : (applyAll es vars).1 = .ok es') (hp : ∀ s ∈ p, toLower s = s)
    (hvars : ∀ e ∈ vars, ∀ q, pathOf? e.1 = some q → Passes es p q) :
    at? p (.map es') = at? p (.map es) ∧ (Straight p (.map es') ↔ Straight p (.map es)) := by
  induction vars generalizing es with
  | nil =>
    obtain rfl := Except.ok.inj h
    exact ⟨rfl, Iff.rfl⟩
  | cons e vars ih =>
    obtain ⟨hhere, hrest⟩ := List.forall_mem_cons.1 hvars
    obtain ⟨-, happlied⟩ | ⟨q, v, hpath, -, happlied⟩ := applyAll_cons h
    · exact ih happlied hrest
    · obtain ⟨hat, hstraight⟩ := setAt_frame (v := v) hp (pathOf?_shape hpath).2 (hhere q hpath)
      obtain ⟨hat', hstraight'⟩ := ih happlied fun e he q hq => by
        simpa only [Passes, hstraight] using hrest e he q hq
      exact ⟨hat'.trans hat, hstraight'.trans hstraight⟩

/-- What is found under a name that overrides spell in other letters stays. -/
theorem applyAll_get? (h : (applyAll es vars).1 = .ok es') (hs : toLower s = s) (hother : spelling s es ≠ s) :
    es'.get? s = es.get? s := by
  obtain ⟨hat, -⟩ := applyAll_frame h (p := [s]) (by simpa using hs) fun e _ q hq =>
    ⟨fun hthrough => hthrough.eq_of_length_le (List.length_pos_iff.2 (pathOf?_shape hq).1),
      fun _ hstraight => hother (straight_singleton.1 hstraight)⟩
  rwa [at?_singleton, at?_singleton] at hat

/-- Neither path leads through the end of the other. -/
def Apart (p q : List Text) : Prop := ¬ p <+: q ∧ ¬ q <+: p

theorem Apart.passes (h : Apart p q) : Passes es p q := ⟨fun hq => absurd hq h.2, fun hp => absurd hp h.1⟩

/-- Among overrides elsewhere, the one of a straight path is read there. -/
theorem applyAll_at? (h : (applyAll es vars).1 = .ok es') (hmem : (name, raw) ∈ vars)
    (hnodup : (vars.map (·.1)).Nodup) (hname : pathOf? name = some p) (hstraight : Straight p (.map es))
    (hothers : ∀ e ∈ vars, e.1 ≠ name → ∀ q, pathOf? e.1 = some q → Apart p q) :
    ∃ v, value raw = .ok v ∧ at? p (.map es') = some v := by
  obtain ⟨before, after, rfl⟩ := List.append_of_mem hmem
  obtain ⟨hne, hlower⟩ := pathOf?_shape hname
  rw [List.map_append, List.map_cons, List.nodup_append, List.nodup_cons] at hnodup
  obtain ⟨-, ⟨hafter, -⟩, hbefore⟩ := hnodup
  have hleft : ∀ e ∈ before, e.1 ≠ name := fun e he =>
    hbefore e.1 (List.mem_map_of_mem he) name List.mem_cons_self
  have hright : ∀ e ∈ after, e.1 ≠ name := fun e he hsame => hafter (List.mem_map.2 ⟨e, he, hsame⟩)
  obtain ⟨mid, v, hvalue, hmid, hlast⟩ := applyAll_split h hname
  -- Those before it leave the path straight, and those behind it what it wrote.
  obtain ⟨-, hkept⟩ := applyAll_frame hmid hlower fun e he q hq =>
    (hothers e (by simp [he]) (hleft e he) q hq).passes
  obtain ⟨hat, -⟩ := applyAll_frame hlast hlower fun e he q hq =>
    (hothers e (by simp [he]) (hright e he) q hq).passes
  exact ⟨v, hvalue, by rw [hat, at?_setAt hne (hkept.2 hstraight)]⟩

end Config.Override

end PageTemplate
