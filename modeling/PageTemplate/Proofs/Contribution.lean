import PageTemplate.Proofs.Compiling
import PageTemplate.Proofs.Fixpoint
import PageTemplate.Proofs.Keys
set_option autoImplicit false
/-!
What feature modules contribute. The modules of a directory are loaded in the order of their files, so each variable is
the one of the last module that has it, and each function the last one under its name. What cannot be loaded or called
leaves no trace, and neither does what was there before or the order in which the directory lists its files.
-/
namespace PageTemplate

namespace Entries

variable {es fs : Entries} {k v : Value}

theorem overlay_append (gs : Entries) : es.overlay (fs ++ gs) = (es.overlay fs).overlay gs := List.foldl_append

theorem find?_append : find? k (es ++ fs) = (find? k es).or (find? k fs) := by
  rw [find?, find?, find?, List.find?_append, Option.map_or]

theorem Keyed.find?_reverse (h : es.Keyed) (hk : k.IsKey) : Entries.find? k es.reverse = es.find? k := by
  induction es with
  | nil => rfl
  | cons e es ih =>
    obtain ⟨key, v⟩ := e
    obtain ⟨hkey, hes, hapart⟩ := keyed_cons.mp h
    rw [List.reverse_cons, find?_append, ih hes, find?_cons, find?_cons]
    split
    · next halike => rw [hes.find?_eq_none_of_alike hkey hk halike hapart, Option.none_or]
    · exact Option.or_none

/-- Of entries that are set in turn, the last one under a key is found. -/
theorem find?_overlay (h : es.Keyed) (hfs : ∀ k ∈ fs.keys, k.IsKey) (hk : k.IsKey) :
    (es.overlay fs).find? k = (Entries.find? k fs.reverse).or (es.find? k) := by
  induction fs generalizing es with
  | nil => rfl
  | cons e fs ih =>
    obtain ⟨key, v⟩ := e
    obtain ⟨hkey, hrest⟩ := List.forall_mem_cons.mp hfs
    have hoverlay : es.overlay ((key, v) :: fs) = (es.put key v).overlay fs := rfl
    rw [hoverlay, ih (keyed_put h hkey) hrest, h.find?_put hkey hk, List.reverse_cons, find?_append, find?_cons,
      Option.or_assoc]
    split <;> rfl

end Entries

namespace Registry

variable {r : Registry} {name n : Text} {item : Registered} {es : List (Text × Registered)}

/-- Registers entries in turn. -/
def addAll (r : Registry) (es : List (Text × Registered)) : Registry := es.foldl (fun r e => r.add e.1 e.2) r

theorem addAll_append (fs : List (Text × Registered)) : r.addAll (es ++ fs) = (r.addAll es).addAll fs :=
  List.foldl_append

theorem calls_addAll : (r.addAll es).calls = r.calls := by
  induction es generalizing r with
  | nil => rfl
  | cons e es ih => exact ih

theorem lookup_cons {e : Text × Registered} : List.lookup n (e :: es) = if n = e.1 then some e.2 else es.lookup n := by
  by_cases h : n = e.1
  · rw [if_pos h, h, List.lookup_cons_self]
  · rw [if_neg h, List.lookup_cons, beq_eq_false_iff_ne.mpr h]

theorem lookup_put : (put name item es).lookup n = if n = name then some item else es.lookup n := by
  induction es with
  | nil => exact lookup_cons
  | cons e es ih =>
    rw [put, lookup_cons]
    split
    · next hname =>
      rw [lookup_cons, hname]
      split <;> rfl
    · next hname =>
      rw [lookup_cons, ih]
      by_cases h : n = e.1
      · rw [if_pos h, if_pos h, if_neg (h ▸ hname)]
      · rw [if_neg h, if_neg h]

/-- Of entries that are registered in turn, the last one under a name is found. -/
theorem lookup_items_addAll : (r.addAll es).items.lookup n = (es.reverse.lookup n).or (r.items.lookup n) := by
  induction es generalizing r with
  | nil => rfl
  | cons e es ih =>
    have hadd : r.addAll (e :: es) = (r.add e.1 e.2).addAll es := rfl
    have hitems : (r.add e.1 e.2).items = put e.1 e.2 r.items := rfl
    rw [hadd, ih, hitems, lookup_put, List.reverse_cons, List.lookup_append, lookup_cons, Option.or_assoc]
    split <;> rfl

theorem map_fst_put :
    (put name item es).map (·.1) = if name ∈ es.map (·.1) then es.map (·.1) else es.map (·.1) ++ [name] := by
  induction es with
  | nil => rfl
  | cons e es ih =>
    rw [put, List.map_cons]
    by_cases h : e.1 = name
    · rw [if_pos h, List.map_cons, h, if_pos List.mem_cons_self]
    · rw [if_neg h, List.map_cons, ih]
      by_cases hes : name ∈ es.map (·.1)
      · rw [if_pos hes, if_pos (List.mem_cons_of_mem _ hes)]
      · rw [if_neg hes, if_neg (List.not_mem_cons_of_ne_of_not_mem (Ne.symm h) hes), List.cons_append]

theorem nodup_names_addAll (h : r.names.Nodup) : (r.addAll es).names.Nodup := by
  induction es generalizing r with
  | nil => exact h
  | cons e es ih =>
    refine ih ?_
    change ((put e.1 e.2 r.items).map (·.1)).Nodup
    rw [map_fst_put]
    split
    · exact h
    · next hnew => exact List.nodup_append.mpr ⟨h, List.nodup_singleton _, fun n hn m hm => by
        rw [List.mem_singleton.mp hm]
        exact ne_of_mem_of_not_mem hn hnew⟩

theorem mem_names_iff : n ∈ r.names ↔ (r.items.lookup n).isSome := by
  rw [List.lookup_isSome_iff, names, List.mem_map]
  simp only [beq_iff_eq, eq_comm (a := n)]

theorem mem_put {e : Text × Registered} (h : e ∈ put name item es) : e = (name, item) ∨ e ∈ es := by
  induction es with
  | nil => exact .inl (List.mem_singleton.mp h)
  | cons e' es ih =>
    rw [put] at h
    split at h
    · exact (List.mem_cons.mp h).imp_right fun h => List.mem_cons_of_mem _ h
    · obtain rfl | h := List.mem_cons.mp h
      · exact .inr List.mem_cons_self
      · exact (ih h).imp_right fun h => List.mem_cons_of_mem _ h

theorem mem_items_addAll {e : Text × Registered} (h : e ∈ (r.addAll es).items) : e ∈ es ∨ e ∈ r.items := by
  induction es generalizing r with
  | nil => exact .inr h
  | cons e' es ih =>
    obtain h | h := ih (r := r.add e'.1 e'.2) h
    · exact .inl (List.mem_cons_of_mem e' h)
    · obtain rfl | h := mem_put h
      · exact .inl List.mem_cons_self
      · exact .inr h

theorem find?_eq_lookup (h : ∀ e ∈ r.items, e.2.isNull = false) : r.find? n = r.items.lookup n := by
  rw [find?]
  cases hitem : r.items.lookup n with
  | none => rfl
  | some item =>
    obtain ⟨l₁, l₂, hitems, -⟩ := List.lookup_eq_some_iff.mp hitem
    have hnull : item.isNull = false := h (n, item) (hitems ▸ List.mem_append_right _ List.mem_cons_self)
    rw [Option.filter_some, hnull, Bool.not_false, if_pos rfl]

end Registry

namespace FeatureModule

/-- The variables that a module defines. -/
def vars : FeatureModule → Entries
  | .loaded _ (.map es) => es
  | _ => []

/-- The functions that a module defines; what cannot be called is none. -/
def callables : FeatureModule → List (Text × Registered)
  | .loaded functions _ => functions.entries.filter fun e => e.2.id?.isSome
  | .broken _ => []

/-- The functions of a module in a file under their full names. -/
def named (file : Text) (m : FeatureModule) : List (Text × Registered) :=
  m.callables.map fun e => (stem file ++ '.' :: e.1, e.2)

/-- A module with nothing but what it contributes; a broken one is none. -/
def sound? : Text × FeatureModule → Option (Text × FeatureModule)
  | (_, .broken _) => none
  | (file, .loaded functions v) =>
    some (file, .loaded (.functions (callables (.loaded functions v))) (.map (vars (.loaded functions v))))

variable {m : FeatureModule} {file : Text} {r : Registry} {f : Features}

theorem addFunctions_fst (es : List (Text × Registered)) :
    (addFunctions file r es).1 =
      r.addAll ((es.filter fun e => e.2.id?.isSome).map fun e => (stem file ++ '.' :: e.1, e.2)) := by
  induction es generalizing r with
  | nil => rfl
  | cons e es ih =>
    obtain ⟨n, item⟩ := e
    cases item with
    | plain v => exact ih
    | function id run => exact ih

theorem extend_fst (path : Path) :
    (m.extend f path).1 = ⟨f.vars.overlay m.vars, f.functions.addAll (m.named (name path))⟩ := by
  cases m with
  | broken reason => rfl
  | loaded functions vars =>
    have hfunctions : (addFunctions (name path) f.functions functions.entries).1 =
        f.functions.addAll (named (name path) (.loaded functions vars)) := addFunctions_fst _
    cases vars <;> exact congrArg (Features.mk _) hfunctions

theorem not_null_of_named {e : Text × Registered} (he : e ∈ m.named file) : e.2.isNull = false := by
  obtain ⟨⟨n, item⟩, hitem, rfl⟩ := List.mem_map.mp he
  cases m with
  | broken reason => cases hitem
  | loaded functions vars =>
    have hcallable := (List.mem_filter.mp hitem).2
    cases item with
    | plain v => cases hcallable
    | function id run => rfl

end FeatureModule

open FeatureModule

variable {tree tree' : FileTree} {directory directory' : Path} {ms ms' : List (Text × FeatureModule)}

/-- The path of a file in a directory. -/
def Path.child (directory : Path) (file : Text) : Path := { directory with segments := directory.segments ++ [file] }

/-- The names of what lies directly in a directory, as the tree lists them. -/
def FileTree.listing (tree : FileTree) (l : Location) : List Text :=
  tree.entries.filterMap fun e =>
    match Location.below? l e.1 with
    | some [name] => some name
    | _ => none

/-- The modules of a directory, in the order of their files, and no two keys of their variables are alike. -/
structure HoldsModules (tree : FileTree) (directory : Path) (ms : List (Text × FeatureModule)) : Prop where
  there : tree.hasDirectory directory = .ok true
  inOrder : ms.Pairwise fun a b => Text.before a.1 b.1
  listed : ((tree.listing directory.location).filter fun n =>
    endsWith extension n && tree.isFile (directory.location ++ [n]) && n != marker).Perm (ms.map (·.1))
  modules : ∀ a ∈ ms, FeatureModule.at? tree (directory.child a.1) = some a.2
  keyed : ∀ a ∈ ms, a.2.vars.Keyed

/-- All that modules define, each in the file beside it. -/
def allVars (ms : List (Text × FeatureModule)) : Entries := ms.flatMap fun a => a.2.vars

def allNamed (ms : List (Text × FeatureModule)) : List (Text × Registered) := ms.flatMap fun a => a.2.named a.1

theorem flatMap_sound {β : Type} {g : Text × FeatureModule → List β} (hnone : ∀ a, sound? a = none → g a = [])
    (hsome : ∀ a b, sound? a = some b → g b = g a) : (ms.filterMap sound?).flatMap g = ms.flatMap g := by
  induction ms with
  | nil => rfl
  | cons a ms ih =>
    cases hsound : sound? a with
    | none => rw [List.filterMap_cons_none hsound, List.flatMap_cons, hnone a hsound, ih, List.nil_append]
    | some b => rw [List.filterMap_cons_some hsound, List.flatMap_cons, List.flatMap_cons, hsome a b hsound, ih]

/-- What is broken or cannot be called adds nothing. -/
theorem allVars_sound (ms : List (Text × FeatureModule)) : allVars (ms.filterMap sound?) = allVars ms := by
  refine flatMap_sound (fun a ha => ?_) fun a b hab => ?_
  · obtain ⟨file, _ | _⟩ := a
    · rfl
    · cases ha
  · obtain ⟨file, _ | ⟨functions, v⟩⟩ := a
    · cases hab
    · obtain rfl := Option.some.inj hab
      rfl

theorem allNamed_sound (ms : List (Text × FeatureModule)) : allNamed (ms.filterMap sound?) = allNamed ms := by
  refine flatMap_sound (fun a ha => ?_) fun a b hab => ?_
  · obtain ⟨file, _ | _⟩ := a
    · rfl
    · cases ha
  · obtain ⟨file, _ | ⟨functions, v⟩⟩ := a
    · cases hab
    · obtain rfl := Option.some.inj hab
      have hcallables (es : List (Text × Registered)) : (es.filter fun e => e.2.id?.isSome).filter
          (fun e => e.2.id?.isSome) = es.filter fun e => e.2.id?.isSome := by simp
      exact congrArg (List.map _) (hcallables functions.entries)

namespace HoldsModules

theorem pathsIn (h : HoldsModules tree directory ms) :
    FeatureModule.pathsIn tree [marker] directory = .ok (ms.map fun a => directory.child a.1) := by
  have hle (s t : Text) : Text.noLaterThan s t = true ↔ s ≤ t := by
    rw [Text.noLaterThan, Bool.not_eq_true', ← Bool.not_eq_true, Value.before_iff, not_lt]
  have hsorted : (tree.names directory.location).Pairwise fun s t => Text.noLaterThan s t = true :=
    List.pairwise_mergeSort (fun s t u => by simpa only [hle] using le_trans)
      (fun s t => by simpa only [Bool.or_eq_true, hle] using le_total s t) _
  have hnames : (tree.names directory.location).Pairwise (· ≤ ·) := hsorted.imp fun hst => (hle _ _).mp hst
  have hfiles : (ms.map (·.1)).Pairwise (· ≤ ·) :=
    List.pairwise_map.mpr (h.inOrder.imp fun hab => (Value.before_iff.mp hab).le)
  have hmarker (n : Text) : (!List.contains [marker] n) = (n != marker) := by
    rw [List.contains_cons, List.contains_nil, Bool.or_false]
    rfl
  have hfilter : ((tree.names directory.location).filter fun n =>
      endsWith extension n && tree.isFile (directory.location ++ [n]) && !List.contains [marker] n) = ms.map (·.1) := by
    simp only [hmarker]
    exact List.Perm.eq_of_pairwise (fun s t _ _ => le_antisymm) (hnames.filter _) hfiles
      (((List.mergeSort_perm _ _).filter _).trans h.listed)
  rw [FeatureModule.pathsIn, h.there]
  change Except.ok (List.map _ (List.filter _ _)) = _
  rw [hfilter, List.map_map]
  rfl

theorem load_fst {f : Features} (hmodules : ∀ a ∈ ms, FeatureModule.at? tree (directory.child a.1) = some a.2) :
    (Features.load tree f (ms.map fun a => directory.child a.1)).1 =
      ⟨f.vars.overlay (allVars ms), f.functions.addAll (allNamed ms)⟩ := by
  induction ms generalizing f with
  | nil => rfl
  | cons a ms ih =>
    obtain ⟨hhere, hrest⟩ := List.forall_mem_cons.mp hmodules
    have hname : FeatureModule.name (directory.child a.1) = a.1 := by
      rw [FeatureModule.name, Path.child, List.getLast?_concat, Option.getD_some]
    rw [List.map_cons, Features.load, hhere]
    simp only
    rw [ih hrest, extend_fst, hname, ← Entries.overlay_append, ← Registry.addAll_append]
    rfl

theorem collect (h : HoldsModules tree directory ms) : ∃ ns,
    Features.collect tree directory = .ok (⟨Entries.overlay [] (allVars ms), Registry.empty.addAll (allNamed ms)⟩, ns) := by
  have hpaths : FeatureModule.paths tree [marker] [directory] = .ok (ms.map fun a => directory.child a.1) := by
    rw [FeatureModule.paths, List.mapM_cons, h.pathsIn, List.mapM_nil]
    exact congrArg Except.ok (by simp)
  refine ⟨(Features.load tree .empty (ms.map fun a => directory.child a.1)).2, ?_⟩
  rw [Features.collect, hpaths]
  exact congrArg Except.ok (Prod.ext (load_fst h.modules) rfl)

end HoldsModules

/-- The features of modules and nothing else: a variable is the one of the last module that has it, and a function is
the last one under its name. -/
structure Features.Of (ms : List (Text × FeatureModule)) (f : Features) : Prop where
  vars : ∀ k : Value, k.IsKey → f.vars.find? k = ms.reverse.findSome? fun a => a.2.vars.find? k
  functions : ∀ name, f.functions.find? name = (allNamed ms).reverse.lookup name
  names : f.functions.names.Nodup ∧ ∀ name, name ∈ f.functions.names ↔ name ∈ (allNamed ms).map (·.1)

/-- In all variables behind each other, the last module that has a key is found first from the end. -/
theorem find?_reverse_allVars (h : ∀ a ∈ ms, a.2.vars.Keyed) {k : Value} (hk : k.IsKey) :
    Entries.find? k (allVars ms).reverse = ms.reverse.findSome? fun a => a.2.vars.find? k := by
  induction ms with
  | nil => rfl
  | cons a ms ih =>
    obtain ⟨hhere, hrest⟩ := List.forall_mem_cons.mp h
    have hcons : allVars (a :: ms) = a.2.vars ++ allVars ms := List.flatMap_cons
    rw [hcons, List.reverse_append, Entries.find?_append, ih hrest, hhere.find?_reverse hk, List.reverse_cons,
      List.findSome?_append, List.findSome?_singleton]

theorem keys_allVars (h : ∀ a ∈ ms, a.2.vars.Keyed) : ∀ k ∈ (allVars ms).keys, k.IsKey := by
  intro k hk
  obtain ⟨e, he, rfl⟩ := List.mem_map.mp hk
  obtain ⟨a, ha, he⟩ := List.mem_flatMap.mp he
  exact (h a ha).isKey e.1 (List.mem_map_of_mem he)

theorem Features.of_modules {f : Features} (h : ∀ a ∈ ms, a.2.vars.Keyed)
    (hvars : f.vars = Entries.overlay [] (allVars ms))
    (hfunctions : f.functions = Registry.empty.addAll (allNamed ms)) : f.Of ms := by
  have hlookup (name : Text) : f.functions.items.lookup name = (allNamed ms).reverse.lookup name := by
    rw [hfunctions, Registry.lookup_items_addAll]
    exact Option.or_none
  have hcallable : ∀ e ∈ f.functions.items, e.2.isNull = false := by
    intro e he
    obtain he | he := Registry.mem_items_addAll (hfunctions ▸ he)
    · obtain ⟨a, -, he⟩ := List.mem_flatMap.mp he
      exact not_null_of_named he
    · cases he
  refine ⟨fun k hk => ?_, fun name => ?_, ?_, fun name => ?_⟩
  · rw [hvars, Entries.find?_overlay Entries.keyed_nil (keys_allVars h) hk, find?_reverse_allVars h hk]
    exact Option.or_none
  · rw [Registry.find?_eq_lookup hcallable, hlookup]
  · rw [hfunctions]
    exact Registry.nodup_names_addAll List.nodup_nil
  · rw [Registry.mem_names_iff, hlookup, List.lookup_isSome_iff]
    simp only [List.mem_reverse, beq_iff_eq, List.mem_map, eq_comm (a := name)]

/-- After a reload, where the directory holds modules, the features are those of the modules. -/
theorem Site.runFrom_reloadFeatures_of_holds {site : Site} (hcustomize : site.customize = some directory)
    (h : HoldsModules site.tree directory ms) (create : Bool) :
    ((reloadFeatures create).runFrom site).1 = .ok () ∧
      ((reloadFeatures create).runFrom site).2.context.features =
        ⟨Entries.overlay [] (allVars ms), Registry.empty.addAll (allNamed ms)⟩ := by
  obtain ⟨ns, hcollect⟩ := h.collect
  have hfresh : freshFeatures create site.tree site.customize =
      (.ok (⟨Entries.overlay [] (allVars ms), Registry.empty.addAll (allNamed ms)⟩, ns), site.tree) := by
    rw [hcustomize]
    simp only [freshFeatures, h.there, hcollect]
    rfl
  rw [runFrom_reloadFeatures, hfresh]
  exact ⟨rfl, rfl⟩

/-- After a reload the features are those of the modules in the directory, whatever they were and whatever was called
before. Modules that contribute the same give the same, whatever broken ones are among them and in whatever order they
are listed. -/
theorem Site.reloadFeatures_of_modules {site : Site} (hcustomize : site.customize = some directory)
    (h : HoldsModules site.tree directory ms) (create : Bool) :
    ((reloadFeatures create).runFrom site).1 = .ok () ∧
      ((reloadFeatures create).runFrom site).2.context.features.Of ms ∧
      ((reloadFeatures create).runFrom site).2.context.features.functions.calls = [] ∧
      ∀ (site' : Site) (create' : Bool), site'.customize = some directory' → HoldsModules site'.tree directory' ms' →
        ms'.filterMap sound? = ms.filterMap sound? →
        ((reloadFeatures create').runFrom site').1 = .ok () ∧
          ((reloadFeatures create').runFrom site').2.context.features =
            ((reloadFeatures create).runFrom site).2.context.features := by
  obtain ⟨hok, hfeatures⟩ := runFrom_reloadFeatures_of_holds hcustomize h create
  refine ⟨hok, Features.of_modules h.keyed (congrArg Features.vars hfeatures) (congrArg Features.functions hfeatures),
    ?_, fun site' create' hcustomize' h' hsound => ?_⟩
  · rw [hfeatures, Registry.calls_addAll]
    rfl
  · obtain ⟨hok', hfeatures'⟩ := runFrom_reloadFeatures_of_holds hcustomize' h' create'
    refine ⟨hok', ?_⟩
    rw [hfeatures', hfeatures, ← allVars_sound ms', ← allNamed_sound ms', hsound, allVars_sound, allNamed_sound]

/-- A broken module lies between two that define one function and one variable. -/
theorem Site.reloadFeatures_of_modules_dotted :
    let one : Registered := .function 1 fun _ _ => .ok .null
    let two : Registered := .function 2 fun _ _ => .ok .null
    let first : FeatureModule :=
      .loaded (.functions [(text "f", one), (text "n", .plain (.int 1))]) (.map [(.str (text "x"), .int 1)])
    let last : FeatureModule :=
      .loaded (.functions [(text "b.f", two)]) (.map [(.str (text "y"), .int 3), (.str (text "x"), .int 2)])
    let directory : Path := ⟨false, [text "c"]⟩
    let tree : FileTree := ⟨[([text "c"], .directory), ([text "c", text "a.py"], .module last),
      ([text "c", text "a.d.py"], .module (.broken .broken)), ([text "c", text "a.b.py"], .module first)]⟩
    let tree' : FileTree := ⟨[([text "c"], .directory), ([text "c", text "a.b.py"], .module first),
      ([text "c", text "a.py"], .module last)]⟩
    let before : EngineContext :=
      { EngineContext.start (.whole 1) with features := ⟨[(.str (text "old"), .null)], ⟨[(text "old", one)], [(1, [])]⟩⟩ }
    let site : Site := ⟨tree, some directory, before, .whole 0, []⟩
    let site' : Site := ⟨tree', some directory, .start (.whole 1), .whole 0, []⟩
    let ms := [(text "a.b.py", first), (text "a.d.py", .broken .broken), (text "a.py", last)]
    HoldsModules tree directory ms ∧ ((reloadFeatures false).runFrom site).1 = .ok () ∧
      ((reloadFeatures false).runFrom site).2.context.features.Of ms ∧
      (allNamed ms).map (·.1) = [text "a.b.f", text "a.b.f"] ∧
      ((reloadFeatures false).runFrom site).2.context.features.functions.calls = [] ∧
      ((reloadFeatures true).runFrom site').2.context.features =
        ((reloadFeatures false).runFrom site).2.context.features := by
  intro one two first last directory tree tree' before site site' ms
  have hkey (t : Text) (v : Value) : Entries.Keyed [(.str t, v)] :=
    Entries.keyed_cons.mpr ⟨.str t, Entries.keyed_nil, nofun⟩
  have hfirst : first.vars.Keyed := hkey _ _
  have hlast : last.vars.Keyed := Entries.keyed_cons.mpr ⟨.str _, hkey _ _, by decide⟩
  have hholds : HoldsModules tree directory ms := by
    refine ⟨by decide +kernel, by decide, by decide +kernel, ?_, ?_⟩
    · exact List.forall_mem_cons.mpr ⟨rfl, List.forall_mem_cons.mpr ⟨rfl, List.forall_mem_singleton.mpr rfl⟩⟩
    · exact List.forall_mem_cons.mpr ⟨hfirst, List.forall_mem_cons.mpr
        ⟨Entries.keyed_nil, List.forall_mem_singleton.mpr hlast⟩⟩
  have hholds' : HoldsModules tree' directory [(text "a.b.py", first), (text "a.py", last)] := by
    refine ⟨by decide +kernel, by decide, by decide +kernel, ?_, ?_⟩
    · exact List.forall_mem_cons.mpr ⟨rfl, List.forall_mem_singleton.mpr rfl⟩
    · exact List.forall_mem_cons.mpr ⟨hfirst, List.forall_mem_singleton.mpr hlast⟩
  obtain ⟨hok, hof, hcalls, hsame⟩ :=
    reloadFeatures_of_modules (show site.customize = some directory from rfl) hholds false
  exact ⟨hholds, hok, hof, rfl, hcalls, (hsame site' true rfl hholds' rfl).2⟩

end PageTemplate
