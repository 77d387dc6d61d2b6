import PageTemplate.Proofs.Digits
import PageTemplate.Proofs.FreeNames
set_option autoImplicit false
/-!
Where the host values in a result come from. No operation makes a host value: operators and the reader of
JSON give none at all, a member holds those of the value it belongs to, and a call those of the receiver and
the arguments. So by induction on the tree a result holds only host values that the context lent it under
the names of the expression.
-/
namespace PageTemplate

/-- A value from outside, by its number and its name. -/
abbrev Host := Nat × Text

namespace Value

mutual

/-- The host values in a value, at any depth: in items, under and as keys, and in the list of a bound
method. -/
def hosts : Value → List Host
  | .host id name => [(id, name)]
  | .list xs | .tuple xs | .listMethod _ xs _ => hostsAll xs
  | .map es => hostsIn es
  | _ => []

def hostsAll : List Value → List Host
  | [] => []
  | v :: vs => hosts v ++ hostsAll vs

def hostsIn : List (Value × Value) → List Host
  | [] => []
  | (k, v) :: es => hosts k ++ (hosts v ++ hostsIn es)

end

/-- No host value is in it. -/
def Hostless (v : Value) : Prop := v.hosts = []

theorem hostless_null : null.Hostless := rfl

theorem hostless_bool (b : Bool) : (bool b).Hostless := rfl

theorem hostless_number (n : Number) : (number n).Hostless := rfl

theorem hostless_str (t : Text) : (str t).Hostless := rfl

theorem Hostless.subset {v : Value} (h : v.Hostless) (hs : List Host) : v.hosts ⊆ hs := by
  rw [show v.hosts = [] from h]
  exact List.nil_subset hs

theorem mem_hostsAll {h : Host} {vs : List Value} : h ∈ hostsAll vs ↔ ∃ v ∈ vs, h ∈ v.hosts := by
  induction vs with
  | nil => simp [hostsAll]
  | cons v vs ih => simp [hostsAll, ih]

theorem hosts_subset_hostsAll {v : Value} {vs : List Value} (h : v ∈ vs) : v.hosts ⊆ hostsAll vs :=
  fun _ hx => mem_hostsAll.2 ⟨v, h, hx⟩

theorem hostsAll_mono {vs ws : List Value} (h : vs ⊆ ws) : hostsAll vs ⊆ hostsAll ws := by
  intro x hx
  obtain ⟨v, hv, hxv⟩ := mem_hostsAll.1 hx
  exact mem_hostsAll.2 ⟨v, h hv, hxv⟩

theorem hostless_texts (ts : List Text) : (list (ts.map .str)).Hostless := by
  induction ts with
  | nil => rfl
  | cons t ts ih => exact ih

/-! Members -/

theorem hosts_get? {key : Text} {es : Entries} {v : Value} (h : Entries.get? key es = some v) :
    v.hosts ⊆ hostsIn es := by
  induction es with
  | nil => simp [Entries.get?] at h
  | cons e es ih =>
    obtain ⟨k, w⟩ := e
    have hrest : Entries.get? key es = some v → v.hosts ⊆ hostsIn ((k, w) :: es) := fun h' x hx =>
      List.mem_append_right _ (List.mem_append_right _ (ih h' hx))
    cases k with
    | str k =>
      rw [Entries.get?] at h
      split at h
      · obtain rfl := Option.some.inj h
        exact fun x hx => List.mem_append_right _ (List.mem_append_left _ hx)
      · exact hrest h
    | _ => exact hrest h

theorem itemOf?_cases {α : Type} {wrap : α → Value} {items : List α} {name : Text} {v : Value}
    (h : itemOf? wrap items name = .ok (some v)) : v = .nat items.length ∨ ∃ a ∈ items, v = wrap a := by
  unfold itemOf? at h
  split at h
  · exact .inl (Option.some.inj (Except.ok.inj h)).symm
  · obtain ⟨i, -, hi⟩ := Except.map_eq_ok_iff.1 h
    obtain ⟨i, -, hi⟩ := Option.bind_eq_some_iff.1 hi
    obtain ⟨a, ha, rfl⟩ := Option.map_eq_some_iff.1 hi
    exact .inr ⟨a, List.mem_of_getElem? ha, rfl⟩

theorem hosts_item? {items : List Value} {name : Text} {v : Value} (h : itemOf? id items name = .ok (some v)) :
    v.hosts ⊆ hostsAll items := by
  rcases itemOf?_cases h with rfl | ⟨a, ha, rfl⟩
  · exact (hostless_number _).subset _
  · exact hosts_subset_hostsAll ha

theorem hosts_member? {v w : Value} {name : Text} (h : v.member? name = .ok (some w)) : w.hosts ⊆ v.hosts := by
  cases v with
  | map es => exact hosts_get? (Except.ok.inj h)
  | list xs => exact hosts_item? h
  | tuple xs => exact hosts_item? h
  | str t =>
    rcases itemOf?_cases h with rfl | ⟨c, -, rfl⟩
    · exact (hostless_number _).subset _
    · exact (hostless_str _).subset _
  | _ => simp [member?] at h

theorem hosts_getD_member? {v w : Value} {name : Text} (h : (v.member? name).map (·.getD .null) = .ok w) :
    w.hosts ⊆ v.hosts := by
  obtain ⟨o, ho, rfl⟩ := Except.map_eq_ok_iff.1 h
  cases o with
  | none => exact hostless_null.subset _
  | some w => exact hosts_member? ho

theorem hostless_libraryMember (l : Library) (name : Text) : ((l.member? name).getD .null).Hostless := by
  unfold Library.member?
  dsimp only
  split
  · rfl
  · split
    · rfl
    · split <;> rfl

theorem hosts_memberOf {mark : Mark} {v w : Value} {name : Text} (h : v.memberOf mark name = .ok w) :
    w.hosts ⊆ v.hosts := by
  unfold memberOf at h
  split at h
  · exact Except.ok.inj h ▸ hostless_null.subset _
  · cases v with
    | library l => exact Except.ok.inj h ▸ (hostless_libraryMember l name).subset _
    | str t =>
      dsimp only at h
      split at h
      · exact Except.ok.inj h ▸ List.nil_subset _
      · exact hosts_getD_member? h
    | list xs =>
      dsimp only at h
      split at h
      · exact Except.ok.inj h ▸ List.Subset.refl _
      · exact hosts_getD_member? h
    | _ => exact hosts_getD_member? h

end Value

/-- Whatever value the outcome has, it is such. -/
def Outcome.Ensures {α : Type} (o : Outcome α) (P : α → Prop) : Prop := ∀ a, o.result = .ok a → P a

namespace Outcome

variable {α β : Type} {P : α → Prop} {Q : β → Prop}

theorem ensures_ok {a : α} (h : P a) : (ok a).Ensures P := fun _ hb => Except.ok.inj hb ▸ h

theorem ensures_fail (e : ExprError) : (fail e : Outcome α).Ensures P := fun _ hb => nomatch hb

theorem Ensures.bind {o : Outcome α} {f : α → Outcome β} (h : o.Ensures P) (hf : ∀ a, P a → (f a).Ensures Q) :
    (o >>= f).Ensures Q := by
  intro b hb
  change (o.andThen f).result = .ok b at hb
  unfold andThen at hb
  split at hb
  · next a ha => exact hf a (h a ha) b hb
  · nomatch hb

theorem ensures_ofExcept {o : Except Fault α} (h : ∀ a, o = .ok a → P a) : (ofExcept o).Ensures P := by
  cases o with
  | ok a => exact ensures_ok (h a rfl)
  | error f => exact ensures_fail _

/-- What follows an outcome of which nothing is known. -/
theorem ensures_bind {o : Outcome α} {f : α → Outcome β} (hf : ∀ a, (f a).Ensures Q) : (o >>= f).Ensures Q :=
  Ensures.bind (fun _ _ => trivial : o.Ensures fun _ => True) fun a _ => hf a

theorem Ensures.mono {R : α → Prop} {o : Outcome α} (h : o.Ensures P) (hP : ∀ a, P a → R a) : o.Ensures R :=
  fun a ha => hP a (h a ha)

theorem Ensures.ite {o o' : Outcome α} (c : Prop) [Decidable c] (h : o.Ensures P) (h' : o'.Ensures P) :
    (if c then o else o').Ensures P := by
  split
  · exact h
  · exact h'

end Outcome

open Outcome

namespace Value

theorem hosts_access (mark : Mark) (v key : Value) :
    (v.access mark key).Ensures fun w => w.hosts ⊆ v.hosts := by
  cases v with
  | null => exact ensures_bind fun _ => ensures_fail _
  | _ =>
    refine ensures_ofExcept fun w hw => ?_
    obtain ⟨name?, -, hw⟩ := Except.bind_eq_ok_iff.1 hw
    cases name? with
    | none => exact Except.ok.inj hw ▸ hostless_null.subset _
    | some name => exact hosts_memberOf hw

/-! Operators -/

/-- Only the value that comes out counts where a computation may fail. -/
theorem hostless_map {α : Type} {wrap : α → Value} (h : ∀ a, (wrap a).Hostless) (o : Except Fault α) :
    (ofExcept (o.map wrap)).Ensures Hostless :=
  ensures_ofExcept fun _ hv => by
    obtain ⟨a, -, rfl⟩ := Except.map_eq_ok_iff.1 hv
    exact h a

theorem hostless_onNumbers (op : BinaryOp) (a b : Value) (f : Number → Number → Outcome Number) :
    (onNumbers op a b f).Ensures Hostless :=
  ensures_bind fun _ => ensures_bind fun _ => ensures_bind fun n => ensures_ok (hostless_number n)

theorem hostless_add (origin : Origin) (a b : Value) : (add origin a b).Ensures Hostless := by
  unfold add
  split
  · exact ensures_bind fun s => ensures_bind fun t => ensures_ok (hostless_str (s ++ t))
  · exact ensures_bind fun s => ensures_bind fun t => ensures_ok (hostless_str (s ++ t))
  · exact hostless_onNumbers _ a b _

theorem hostless_ofOrder (op : OrderOp) (a b : Value) : (ofOrder op a b).Ensures Hostless := by
  unfold ofOrder
  split
  · exact ensures_ok (hostless_bool _)
  · exact ensures_fail _

theorem hostless_operate (origin : Origin) (op : BinaryOp) (a b : Value) :
    (operate origin op a b).Ensures Hostless := by
  cases op with
  | add => exact hostless_add origin a b
  | sub | mul | div | rem => exact hostless_onNumbers _ a b _
  | same | notSame => exact ensures_ok (hostless_bool _)
  | equal => exact hostless_map hostless_bool _
  | notEqual => exact hostless_map (fun same => hostless_bool !same) _
  | lt | gt | le | ge => exact hostless_ofOrder _ a b

theorem hostless_applyUnary {origin : Origin} {op : UnaryOp} {v w : Value} (h : v.applyUnary origin op = .ok w) :
    w.Hostless := by
  cases op with
  | not => exact Except.ok.inj h ▸ hostless_bool _
  | neg | pos =>
    obtain ⟨n, -, rfl⟩ := Except.map_eq_ok_iff.1 h
    exact hostless_number _

end Value

open Value

/-! Methods -/

theorem slice_subset {α : Type} (items : List α) (start : Int) (stop : Option Int) :
    slice items start stop ⊆ items :=
  fun _ h => List.mem_of_mem_take (List.mem_of_mem_drop h)

theorem TextMethod.hostless_apply (m : TextMethod) (t : Text) (args : List Value) :
    (m.apply t args).Ensures Hostless := by
  unfold TextMethod.apply
  split
  case h_1 | h_2 | h_3 => exact ensures_ok (hostless_str _)
  case h_4 | h_5 | h_6 => exact hostless_map (fun _ => hostless_bool _) _
  case h_7 => exact hostless_map (fun _ => hostless_number _) _
  case h_8 => exact ensures_bind fun _ => ensures_ok (hostless_str _)
  case h_9 => exact ensures_ok (List.map_map ▸ hostless_texts (t.map fun c => [c]))
  case h_10 => exact ensures_bind fun pieces => ensures_ok (hostless_texts pieces)
  case h_11 => exact ensures_bind fun _ => ensures_bind fun _ => ensures_ok (hostless_str _)
  case h_12 => exact ensures_fail _

theorem ListMethod.hosts_apply (m : ListMethod) (items args : List Value) :
    (m.apply items args).Ensures fun v => v.hosts ⊆ hostsAll items := by
  unfold ListMethod.apply
  split
  case h_1 => exact ensures_ok ((hostless_bool _).subset _)
  case h_2 => exact ensures_ok ((hostless_number _).subset _)
  case h_3 => exact ensures_bind fun _ => ensures_ok ((hostless_str _).subset _)
  case h_4 => exact ensures_bind fun _ => ensures_bind fun _ => ensures_ok ((hostless_str _).subset _)
  case h_5 => exact ensures_bind fun bounds => ensures_ok (hostsAll_mono (slice_subset items bounds.1 bounds.2))
  case h_6 => exact ensures_fail _

/-! JSON -/

namespace Entries

theorem hosts_put (key value : Value) (es : Entries) :
    hostsIn (es.put key value) ⊆ hostsIn es ++ (key.hosts ++ value.hosts) := by
  induction es with
  | nil => simp [put, hostsIn]
  | cons e es ih =>
    obtain ⟨k, v⟩ := e
    rw [put]
    split
    · simp only [hostsIn]
      grind
    · simp only [hostsIn]
      grind

theorem hosts_ofPairs (pairs : List (Value × Value)) : hostsIn (ofPairs pairs) ⊆ hostsIn pairs := by
  have hfold : ∀ es : Entries,
      hostsIn (pairs.foldl (fun es e => Entries.put e.1 e.2 es) es) ⊆ hostsIn es ++ hostsIn pairs := by
    induction pairs with
    | nil => simp [hostsIn]
    | cons e pairs ih =>
      intro es
      have hput := hosts_put e.1 e.2 es
      have hrest := ih (es.put e.1 e.2)
      simp only [List.foldl_cons, hostsIn]
      grind
  exact hfold []

end Entries

namespace Json

theorem hostless_readNamed? {t rest : Text} {v : Value} (h : readNamed? t = some (v, rest)) : v.Hostless := by
  obtain ⟨⟨name, w⟩, hw, hv⟩ := List.exists_of_findSome?_eq_some h
  obtain ⟨r, -, hr⟩ := Option.map_eq_some_iff.1 hv
  obtain ⟨rfl, -⟩ := Prod.mk.inj hr
  simp only [named, List.mem_cons, List.not_mem_nil, or_false, Prod.mk.injEq] at hw
  rcases hw with ⟨-, rfl⟩ | ⟨-, rfl⟩ | ⟨-, rfl⟩ | ⟨-, rfl⟩ | ⟨-, rfl⟩ | ⟨-, rfl⟩ <;> rfl

theorem hostless_readNumber {negative : Bool} {t rest : Text} {v : Value}
    (h : readNumber negative t = .ok (v, rest)) : v.Hostless := by
  unfold readNumber at h
  dsimp only at h
  split at h
  · nomatch h
  · split at h
    · obtain ⟨n, -, hv⟩ := Except.map_eq_ok_iff.1 h
      obtain ⟨rfl, -⟩ := Prod.mk.inj hv
      rfl
    · obtain ⟨rfl, -⟩ := Prod.mk.inj (Except.ok.inj h)
      rfl

theorem hostless_readPlain {negative : Bool} {t r rest : Text} {v : Value}
    (h : (readNamed? t).elim (readNumber negative r) .ok = .ok (v, rest)) : v.Hostless := by
  cases hn : readNamed? t with
  | none => exact hostless_readNumber (hn ▸ h)
  | some p =>
    rw [hn] at h
    obtain rfl := Except.ok.inj h
    exact hostless_readNamed? hn

mutual

theorem hostless_readValue {fuel : Nat} {t rest : Text} {v : Value} (h : readValue fuel t = .ok (v, rest)) :
    v.Hostless := by
  cases fuel with
  | zero => nomatch h
  | succ fuel =>
    unfold readValue at h
    split at h
    · obtain ⟨_, -, hv⟩ := Except.bind_eq_ok_iff.1 h
      obtain ⟨rfl, -⟩ := Prod.mk.inj (Except.ok.inj hv)
      rfl
    · split at h
      · obtain ⟨rfl, -⟩ := Prod.mk.inj (Except.ok.inj h)
        rfl
      · obtain ⟨⟨vs, _⟩, hvs, hv⟩ := Except.bind_eq_ok_iff.1 h
        obtain ⟨rfl, -⟩ := Prod.mk.inj (Except.ok.inj hv)
        exact hostless_readItems hvs
    · split at h
      · obtain ⟨rfl, -⟩ := Prod.mk.inj (Except.ok.inj h)
        rfl
      · obtain ⟨⟨es, _⟩, hes, hv⟩ := Except.bind_eq_ok_iff.1 h
        obtain ⟨rfl, -⟩ := Prod.mk.inj (Except.ok.inj hv)
        have hentries := hostless_readEntries hes
        have hpairs := Entries.hosts_ofPairs es
        rw [hentries] at hpairs
        exact List.subset_nil.1 hpairs
    · exact hostless_readPlain h
    · exact hostless_readPlain h

theorem hostless_readItems {fuel : Nat} {t rest : Text} {vs : List Value}
    (h : readItems fuel t = .ok (vs, rest)) : hostsAll vs = [] := by
  cases fuel with
  | zero => nomatch h
  | succ fuel =>
    unfold readItems at h
    obtain ⟨⟨v, r⟩, hv, h⟩ := Except.bind_eq_ok_iff.1 h
    have hfirst : v.hosts = [] := hostless_readValue hv
    dsimp only at h
    split at h
    · obtain ⟨⟨ws, _⟩, hws, hcons⟩ := Except.bind_eq_ok_iff.1 h
      obtain ⟨rfl, -⟩ := Prod.mk.inj (Except.ok.inj hcons)
      rw [hostsAll, hfirst, hostless_readItems hws]
      rfl
    · obtain ⟨rfl, -⟩ := Prod.mk.inj (Except.ok.inj h)
      rw [hostsAll, hfirst]
      rfl
    · nomatch h

theorem hostless_readEntries {fuel : Nat} {t rest : Text} {es : List (Value × Value)}
    (h : readEntries fuel t = .ok (es, rest)) : hostsIn es = [] := by
  cases fuel with
  | zero => nomatch h
  | succ fuel =>
    unfold readEntries at h
    split at h
    · obtain ⟨⟨key, r⟩, -, h⟩ := Except.bind_eq_ok_iff.1 h
      dsimp only at h
      split at h
      · obtain ⟨⟨v, r⟩, hv, h⟩ := Except.bind_eq_ok_iff.1 h
        have hfirst : v.hosts = [] := hostless_readValue hv
        dsimp only at h
        split at h
        · obtain ⟨⟨fs, _⟩, hfs, hcons⟩ := Except.bind_eq_ok_iff.1 h
          obtain ⟨rfl, -⟩ := Prod.mk.inj (Except.ok.inj hcons)
          rw [hostsIn, hfirst, hostless_readEntries hfs]
          rfl
        · obtain ⟨rfl, -⟩ := Prod.mk.inj (Except.ok.inj h)
          rw [hostsIn, hfirst]
          rfl
        · nomatch h
      · nomatch h
    · nomatch h

end

theorem hostless_read {t : Text} {v : Value} (h : read t = .ok v) : v.Hostless := by
  obtain ⟨⟨w, rest⟩, hw, h⟩ := Except.bind_eq_ok_iff.1 h
  dsimp only at h
  split at h
  · exact Except.ok.inj h ▸ hostless_readValue hw
  · nomatch h

end Json

/-! Functions -/

theorem Value.Hostless.lent {o : Outcome Value} (h : o.Ensures Hostless) (hs : List Host) :
    o.Ensures fun v => v.hosts ⊆ hs :=
  h.mono fun _ hv => hv.subset hs

theorem hostless_ofNumber {α : Type} (origin : Origin) (v : Value) {wrap : α → Value} (h : ∀ a, (wrap a).Hostless)
    (f : Number → Except Fault α) : (ofNumber origin v wrap f).Ensures Hostless :=
  hostless_map h _

theorem hostless_mathExtreme (origin : Origin) (beats : Number → Number → Bool) (empty : Float)
    (args : List Value) : (ofExcept (mathExtreme origin beats empty args)).Ensures Hostless := by
  refine ensures_ofExcept fun v hv => ?_
  obtain ⟨ns, -, hv⟩ := Except.bind_eq_ok_iff.1 hv
  split at hv <;> exact Except.ok.inj hv ▸ hostless_number _

theorem hostless_parse (t : Except Fault Text) : (ofExcept (t >>= Json.read)).Ensures Hostless :=
  ensures_ofExcept fun _ hv => by
    obtain ⟨t, -, hv⟩ := Except.bind_eq_ok_iff.1 hv
    exact Json.hostless_read hv

theorem Builtin.hosts_apply (ambient : Ambient) (origin : Origin) (b : Builtin) (args : List Value) :
    (b.apply ambient origin args).Ensures fun v => v.hosts ⊆ hostsAll args := by
  unfold Builtin.apply
  split
  -- the combinators give one of their arguments, every other function a new value
  case h_22 a b | h_23 a b =>
    refine ensures_ok ?_
    split <;> exact hosts_subset_hostsAll (by simp)
  all_goals refine Hostless.lent ?_ _
  case h_1 => exact ensures_ok (hostless_str _)
  case h_2 | h_18 => exact ensures_bind fun t => ensures_ok (hostless_str t)
  case h_3 | h_17 | h_20 => exact ensures_ok (hostless_number _)
  case h_5 | h_6 | h_21 | h_24 | h_25 | h_26 => exact ensures_ok (hostless_bool _)
  case h_7 | h_8 => exact hostless_mathExtreme _ _ _ _
  case h_4 | h_9 | h_10 | h_11 | h_12 | h_13 | h_14 | h_15 | h_16 =>
    exact hostless_ofNumber _ _ (fun _ => hostless_number _) _
  case h_19 => exact hostless_parse _
  case h_27 | h_28 | h_29 | h_30 => exact hostless_ofOrder _ _ _
  case h_31 => exact ensures_fail _

theorem Value.hosts_call (ambient : Ambient) (origin : Origin) (f : Value) (args : List Value) :
    (f.call ambient origin args).Ensures fun v => v.hosts ⊆ f.hosts ++ hostsAll args := by
  unfold call
  split
  · next b =>
    exact (b.hosts_apply ambient origin args).mono fun _ h => List.Subset.trans h (List.subset_append_right _ _)
  · next m t _ => exact Hostless.lent (m.hostless_apply t args) _
  · next m items _ => exact (m.hosts_apply items args).mono fun _ h => List.Subset.trans h (List.subset_append_left _ _)
  · exact ensures_bind fun _ => ensures_fail _

/-! Evaluation -/

namespace Entries

/-- The context binds one of the names, where the name can be seen, to a value that the host value is in. -/
def Lends (c : Entries) (names : List Text) (h : Host) : Prop :=
  ∃ n ∈ names, ∃ v, Scope.lookup? c n = some v ∧ c.get? n = some v ∧ h ∈ v.hosts

theorem Lends.mono {c : Entries} {names more : List Text} {h : Host} (hl : c.Lends names h)
    (hn : names ⊆ more) : c.Lends more h := by
  obtain ⟨n, hmem, hv⟩ := hl
  exact ⟨n, hn hmem, hv⟩

/-- The context lends all these host values. -/
def LendsAll (c : Entries) (names : List Text) (hs : List Host) : Prop := ∀ h ∈ hs, c.Lends names h

theorem LendsAll.of_subset {c : Entries} {names : List Text} {hs gs : List Host} (hl : c.LendsAll names hs)
    (hg : gs ⊆ hs) : c.LendsAll names gs :=
  fun h hh => hl h (hg hh)

theorem LendsAll.append {c : Entries} {names : List Text} {hs gs : List Host} (hl : c.LendsAll names hs)
    (hg : c.LendsAll names gs) : c.LendsAll names (hs ++ gs) :=
  fun h hh => (List.mem_append.1 hh).elim (hl h) (hg h)

theorem lendsAll_of_hostless {v : Value} (hv : v.Hostless) (c : Entries) (names : List Text) :
    c.LendsAll names v.hosts :=
  fun _ h => nomatch hv.subset [] h

end Entries

open Entries

namespace Scope

theorem hostless_global {name : Text} {v : Value} (h : global? name = some v) : v.Hostless := by
  have hglobals : ∀ e ∈ globals, e.2.hosts = [] := by decide
  obtain ⟨before, after, hsplit, -⟩ := List.lookup_eq_some_iff.1 h
  exact hglobals (name, v) (by simp [hsplit])

theorem lends_lookup? {c : Entries} {name : Text} {v : Value} (h : lookup? c name = some v) :
    c.LendsAll [name] v.hosts := by
  have hseen := h
  unfold lookup? at h
  split at h
  · exact lendsAll_of_hostless (Option.some.inj h ▸ hostless_null) c [name]
  · split at h
    · next hg => exact lendsAll_of_hostless (Option.some.inj h ▸ hostless_global hg) c [name]
    · split at h
      · nomatch h
      · exact fun x hx => ⟨name, List.mem_singleton.2 rfl, v, hseen, h, hx⟩

end Scope

namespace Expr

theorem hostless_literal (l : Literal) : l.value.Hostless := by cases l <;> rfl

section Lending

variable (s : Surroundings)

/-- Every value of the outcome holds only what the context lends under these names. -/
def Borrows (names : List Text) (o : Outcome Value) : Prop :=
  o.Ensures fun v => s.context.LendsAll names v.hosts

variable {s}

theorem Borrows.mono {names more : List Text} {o : Outcome Value} (h : Borrows s names o) (hn : names ⊆ more) :
    Borrows s more o :=
  Ensures.mono h fun _ hv x hx => (hv x hx).mono hn

theorem borrows_of_hostless {o : Outcome Value} (h : o.Ensures Hostless) (names : List Text) :
    Borrows s names o :=
  h.mono fun _ hv => lendsAll_of_hostless hv _ names

variable (s)

mutual

theorem borrows_eval (mark : Mark) (e : Expr) : Borrows s e.names (e.eval s mark) := by
  cases e with
  | literal l => exact borrows_of_hostless (ensures_ok (hostless_literal l)) _
  | name n =>
    unfold eval
    refine Ensures.ite _ (ensures_fail _) ?_
    cases h : Scope.lookup? s.context n with
    | none => exact ensures_fail _
    | some v => exact ensures_ok (Scope.lends_lookup? h)
  | array es =>
    unfold eval
    exact Ensures.bind (borrows_evalAll mark 0 es) fun vs h => ensures_ok h
  | unary op e =>
    unfold eval
    exact borrows_of_hostless (ensures_bind fun _ => ensures_ofExcept fun _ => hostless_applyUnary) _
  | binary op l r =>
    unfold eval
    exact borrows_of_hostless (ensures_bind fun a => ensures_bind fun b => hostless_operate _ op a b) _
  | logical op l r =>
    have hl := (borrows_eval (mark.child 0) l).mono (List.subset_append_left l.names r.names)
    have hr := (borrows_eval (mark.child 1) r).mono (List.subset_append_right l.names r.names)
    unfold eval
    refine Ensures.bind hl fun a ha => ?_
    cases op with
    | and => exact Ensures.ite _ hr (ensures_ok ha)
    | or => exact Ensures.ite _ (ensures_ok ha) hr
  | conditional t a b =>
    have ha := (borrows_eval (mark.child 1) a).mono
      (List.Subset.trans (List.subset_append_left a.names b.names) (List.subset_append_right t.names _))
    have hb := (borrows_eval (mark.child 2) b).mono
      (List.Subset.trans (List.subset_append_right a.names b.names) (List.subset_append_right t.names _))
    unfold eval
    exact ensures_bind fun v => Ensures.ite _ ha hb
  | member o k =>
    have ho := (borrows_eval (mark.child 0) o).mono (List.subset_append_left o.names k.names)
    unfold eval
    exact Ensures.bind ho fun v hv => ensures_bind fun key =>
      (hosts_access mark v key).mono fun _ hw => hv.of_subset hw
  | call f es =>
    have hf := (borrows_eval (mark.child 0) f).mono (List.subset_append_left f.names (namesAll es))
    have hes := borrows_evalAll mark 1 es
    unfold eval
    refine Ensures.bind hf fun callee hcallee => Ensures.ite _ ?_ ?_
    · refine Ensures.bind hes fun args hargs => (hosts_call _ _ callee args).mono fun v hv => ?_
      have hargs : s.context.LendsAll (f.names ++ namesAll es) (hostsAll args) :=
        fun x hx => (hargs x hx).mono (List.subset_append_right _ _)
      exact (hcallee.append hargs).of_subset hv
    · refine (hosts_call _ _ callee []).mono fun v hv => ?_
      rw [hostsAll, List.append_nil] at hv
      exact hcallee.of_subset hv

theorem borrows_evalAll (mark : Mark) (i : Nat) (es : List Expr) :
    (evalAll s mark i es).Ensures fun vs => s.context.LendsAll (namesAll es) (hostsAll vs) := by
  cases es with
  | nil => exact ensures_ok fun _ h => nomatch h
  | cons e es =>
    have he := (borrows_eval (mark.child i) e).mono (List.subset_append_left e.names (namesAll es))
    have hes := borrows_evalAll mark (i + 1) es
    unfold evalAll
    refine Ensures.bind he fun v hv => Ensures.bind hes fun vs hvs => ensures_ok (hv.append fun x hx => ?_)
    exact (hvs x hx).mono (List.subset_append_right _ _)

end

theorem borrows_evaluate {source : Text} {e : Expr} (h : ofTextWithin nestingLimit (trim source) = .ok e) :
    Borrows s e.names (evaluate s source) := by
  unfold evaluate
  simp only [h]
  exact Ensures.ite _ (ensures_fail _) (Ensures.ite _ (ensures_fail _) (borrows_eval s _ e))

end Lending

end Expr

/-! Host values as operands -/

namespace Value

variable (id : Nat) (name : Text)

theorem access_host (mark : Mark) (key : Value) :
    ((host id name).access mark key).Ensures (· = .null) := by
  refine ensures_ofExcept fun w hw => ?_
  obtain ⟨name?, -, hw⟩ := Except.bind_eq_ok_iff.1 hw
  cases name? with
  | none => exact (Except.ok.inj hw).symm
  | some n =>
    have hmember : memberOf mark (host id name) n = .ok .null := ite_self _
    exact (Except.ok.inj (hmember.symm.trans hw)).symm

theorem call_host (ambient : Ambient) (origin : Origin) (args : List Value) :
    ((host id name).call ambient origin args).Ensures fun _ => False :=
  ensures_bind fun _ => ensures_fail _

end Value

namespace Expr

variable {s : Surroundings} {mark : Mark} {id : Nat} {name : Text}

theorem eval_member_host {o : Expr} (h : (o.eval s (mark.child 0)).result = .ok (.host id name)) (k : Expr) :
    ((Expr.member o k).eval s mark).Ensures (· = .null) := by
  have ho : (o.eval s (mark.child 0)).Ensures (· = .host id name) := fun v hv => Except.ok.inj (hv.symm.trans h)
  unfold eval
  refine ho.bind fun v hv => ensures_bind fun key => ?_
  rw [hv]
  exact access_host id name mark key

theorem eval_call_host {f : Expr} (h : (f.eval s (mark.child 0)).result = .ok (.host id name)) (es : List Expr) :
    ((Expr.call f es).eval s mark).Ensures fun _ => False := by
  have hf : (f.eval s (mark.child 0)).Ensures (· = .host id name) := fun v hv => Except.ok.inj (hv.symm.trans h)
  unfold eval
  refine hf.bind fun v hv => ?_
  rw [hv]
  exact Ensures.ite _ (ensures_bind fun args => call_host id name _ _ args) (call_host id name _ _ [])

/-- Every host value in a result is in a value that the context binds to a name of the expression which can be
seen. No operation makes one: operators and the reader of JSON give none, members and calls give those of
their operands. A host value itself has no member but null, and cannot be called. -/
theorem evaluate_hosts_lent (s : Surroundings) (source : Text) :
    (∀ v, (evaluate s source).result = .ok v → ∀ h ∈ v.hosts,
      ∃ e, ofTextWithin nestingLimit (trim source) = .ok e ∧
        ∃ n ∈ e.names, ∃ w, Scope.lookup? s.context n = some w ∧ s.context.get? n = some w ∧ h ∈ w.hosts) ∧
    (∀ origin op a b v, (operate origin op a b).result = .ok v → v.hosts = []) ∧
    (∀ origin op a v, applyUnary origin op a = .ok v → v.hosts = []) ∧
    (∀ mark a key v, (access mark a key).result = .ok v → v.hosts ⊆ a.hosts) ∧
    (∀ ambient origin f args v, (Value.call ambient origin f args).result = .ok v →
      v.hosts ⊆ f.hosts ++ hostsAll args) ∧
    (∀ t v, Json.read t = .ok v → v.hosts = []) ∧
    (∀ mark o id name, (eval s (mark.child 0) o).result = .ok (.host id name) →
      ∀ k v, (eval s mark (.member o k)).result = .ok v → v = .null) ∧
    (∀ mark f id name, (eval s (mark.child 0) f).result = .ok (.host id name) →
      ∀ es v, (eval s mark (.call f es)).result ≠ .ok v) := by
  refine ⟨fun v hv h hh => ?_, hostless_operate, fun _ _ _ _ => hostless_applyUnary, hosts_access,
    hosts_call, fun _ _ => Json.hostless_read, fun _ _ _ _ h => eval_member_host h, fun _ _ _ _ h => eval_call_host h⟩
  cases hread : ofTextWithin nestingLimit (trim source) with
  | error err => simp [evaluate, hread, Outcome.fail] at hv
  | ok e => exact ⟨e, rfl, borrows_evaluate s hread v hv h hh⟩

/-- A context with host values: one deep in a list, and one that the expression uses as an operand. -/
def lending : Entries :=
  [(.str (text "rows"), .list [.null, .map [(.str (text "db"), .host 1 (text "db"))]]),
    (.str (text "vault"), .host 2 (text "vault")), (.str (text "spare"), .host 3 (text "spare"))]

theorem evaluate_hosts_lent_nested :
    ∃ v, (evaluate ⟨lending, ⟨0.5, 0, 1.0⟩, 0⟩ (text "[rows.slice(1), vault.key, JSON.parse('[0]')]")).result = .ok v ∧
      v.hosts = [(1, text "db")] ∧
      ∀ h ∈ v.hosts, ∃ e,
        ofTextWithin nestingLimit (trim (text "[rows.slice(1), vault.key, JSON.parse('[0]')]")) = .ok e ∧
        ∃ n ∈ e.names, ∃ w, Scope.lookup? lending n = some w ∧ lending.get? n = some w ∧ h ∈ w.hosts := by
  have hrun : (evaluate ⟨lending, ⟨0.5, 0, 1.0⟩, 0⟩
      (text "[rows.slice(1), vault.key, JSON.parse('[0]')]")).result.toOption.map Value.hosts =
        some [(1, text "db")] := by decide +kernel
  cases hresult : (evaluate ⟨lending, ⟨0.5, 0, 1.0⟩, 0⟩
      (text "[rows.slice(1), vault.key, JSON.parse('[0]')]")).result with
  | error err => simp [hresult, Except.toOption] at hrun
  | ok v =>
    rw [hresult] at hrun
    exact ⟨v, rfl, Option.some.inj hrun, (evaluate_hosts_lent _ _).1 v hresult⟩

end Expr

end PageTemplate
