import PageTemplate.Proofs.Scan
import PageTemplate.Proofs.Trimming
import PageTemplate.Proofs.Unfolding
set_option autoImplicit false
/-!
Directives between quotes. A text is read without regard to quotes, and then the directives that stand directly
between two quotes are taken as text. Reading it in one go comes to the same, as long as no quote belongs to two
directives. Which of the two quotes is which makes no difference, so that a directive between quotes of both
kinds is text as well.
-/
namespace PageTemplate

theorem afterFolded?_suffix {word t rest : Text} (h : afterFolded? word t = some rest) : rest <:+ t := by
  induction word generalizing t with
  | nil =>
    obtain rfl := Option.some.inj h
    exact List.suffix_rfl
  | cons p ps ih =>
    cases t with
    | nil => cases h
    | cons c cs =>
      rw [afterFolded?] at h
      split at h
      · exact (ih h).trans (List.suffix_cons c cs)
      · cases h

theorem trim_eq_nil {t : Text} (h : t.all isBlank) : trim t = [] := by
  have htrim := trim_append h []
  rwa [List.append_nil] at htrim

theorem isBlank_of_skipBlanks {t cs : Text} {c : Char} (h : skipBlanks t = c :: cs) : isBlank c = false := by
  have hhead := List.head?_dropWhile_not isBlank t
  rw [← skipBlanks, h] at hhead
  simpa using hhead

theorem trim_cons {c : Char} (hc : isBlank c = false) (t : Text) : trim (c :: t) = c :: dropEndWhile isBlank t := by
  rw [trim, skipBlanks_cons hc]
  exact dropEndWhile_append_cons hc [] t

theorem all_blankRun (t : Text) : (blankRun t).all isBlank := List.all_takeWhile

/-- A path that is not blank stands behind a blank. -/
theorem directivePath?_append {x : Text} (hx : x.all isBlank) {c : Char} (hc : isBlank c = false) (t : Text) :
    directivePath? (x ++ c :: t) = if x = [] then none else some (trim (c :: t)) := by
  have htrim : (trim (x ++ c :: t)).isEmpty = false := by rw [trim_append hx, trim_cons hc]; rfl
  rw [directivePath?, htrim, trim_append hx]
  cases x with
  | nil => simp [startsBlank, hc]
  | cons d x => simp [startsBlank, List.all_eq_true.1 hx d List.mem_cons_self]

theorem directivePath?_blank {x : Text} (hx : x.all isBlank) :
    directivePath? x = if 2 ≤ x.length then some [] else none := by
  rw [directivePath?, trim_eq_nil hx]
  cases x with
  | nil => rfl
  | cons c x => simp [startsBlank, List.all_eq_true.1 hx c List.mem_cons_self]

namespace Include

open Piece

/-! A directive by itself -/

theorem afterWord?_eq_some {t r : Text} (h : afterWord? t = some r) : ∃ cs, t = '[' :: cs ∧ r <:+ cs := by
  simp only [afterWord?, Option.bind_eq_bind, Option.bind_eq_some_iff] at h
  obtain ⟨cs, hcs, hr⟩ := h
  exact ⟨cs, after?_eq_some_iff.1 hcs, afterFolded?_suffix hr⟩

theorem path?_eq (r : Text) : path? r =
    match skipBlanks r with
    | [] => none
    | c :: cs =>
      if blankRun r = [] then none
      else
        match cut? [']'] cs with
        | some (body, rest) => some (trim (c :: body), rest)
        | none => if c = ']' && 2 ≤ (blankRun r).length then some ([], cs) else none := by
  have hdrop : r.drop (blankRun r).length = skipBlanks r := by
    nth_rewrite 2 [← blankRun_append_skipBlanks r]
    exact List.drop_left
  simp only [path?, hdrop, List.length_eq_zero_iff]
  cases skipBlanks r <;> rfl

theorem path?_suffix {r path rest : Text} (h : path? r = some (path, rest)) : rest <:+ r := by
  refine List.IsSuffix.trans ?_ (skipBlanks_suffix r)
  rw [path?_eq] at h
  cases hskip : skipBlanks r with
  | nil => simp [hskip] at h
  | cons c cs =>
    simp only [hskip] at h
    split at h
    · cases h
    · split at h
      · next body rest' hcut =>
        obtain ⟨-, rfl⟩ := Prod.mk.inj (Option.some.inj h)
        exact ⟨c :: body ++ [']'], by simp [cut?_eq_some hcut]⟩
      · split at h
        · obtain ⟨-, rfl⟩ := Prod.mk.inj (Option.some.inj h)
          exact List.suffix_cons c cs
        · cases h

/-- The first closing bracket behind the word of a directive stands behind blanks, or behind the first character
that is none. -/
theorem cut?_bracket {r cs : Text} {c : Char} (hskip : skipBlanks r = c :: cs) :
    cut? [']'] r =
      if c = ']' then some (blankRun r, cs)
      else (cut? [']'] cs).map fun (body, rest) => (blankRun r ++ c :: body, rest) := by
  have hblank : ']' ∉ blankRun r := notMem_of_blank (all_blankRun r) (by decide)
  have hsplit : r = blankRun r ++ c :: cs := by rw [← hskip, blankRun_append_skipBlanks]
  split
  · next hc =>
    subst hc
    exact (congrArg _ hsplit).trans (cut?_append hblank cs)
  · next hc =>
    have hfree : ']' ∉ blankRun r ++ [c] := by simp [hblank, Ne.symm hc]
    have hclear : Clear [']'] (blankRun r ++ [c]) cs := clear_of_head hfree
    have hcut := cut?_of_clear hclear
    rw [List.append_assoc, List.singleton_append, ← hsplit] at hcut
    rw [hcut]
    simp

/-- A path that holds no closing bracket ends at the first one. -/
theorem cut?_of_path? {r path rest : Text} (h : path? r = some (path, rest)) (hpath : ']' ∉ path) :
    ∃ body, cut? [']'] r = some (body, rest) ∧ directivePath? body = some path := by
  rw [path?_eq] at h
  cases hskip : skipBlanks r with
  | nil => simp [hskip] at h
  | cons c cs =>
    have hc := isBlank_of_skipBlanks hskip
    simp only [hskip] at h
    rw [cut?_bracket hskip]
    split at h
    · cases h
    · next hrun =>
      split at h
      · next body rest' hcut =>
        obtain ⟨rfl, rfl⟩ := Prod.mk.inj (Option.some.inj h)
        have hopen : c ≠ ']' := fun he => hpath (by rw [trim_cons hc, he]; exact List.mem_cons_self)
        refine ⟨blankRun r ++ c :: body, by rw [if_neg hopen, hcut]; rfl, ?_⟩
        rw [directivePath?_append (all_blankRun r) hc, if_neg hrun]
      · split at h
        · next hend =>
          obtain ⟨rfl, rfl⟩ := Prod.mk.inj (Option.some.inj h)
          obtain ⟨hopen, hlength⟩ : c = ']' ∧ 2 ≤ (blankRun r).length := by simpa using hend
          exact ⟨blankRun r, if_pos hopen, by rw [directivePath?_blank (all_blankRun r), if_pos hlength]⟩
        · cases h

/-- A path that ends at the first closing bracket is read, or one that starts with that bracket. -/
theorem path?_of_cut? {r body rest path : Text} (hcut : cut? [']'] r = some (body, rest))
    (h : directivePath? body = some path) :
    path? r = some (path, rest) ∨ ∃ path' rest', path? r = some (path', rest') ∧ ']' ∈ path' := by
  rw [path?_eq]
  cases hskip : skipBlanks r with
  | nil =>
    have hblank : r = blankRun r := by rw [← List.append_nil (blankRun r), ← hskip, blankRun_append_skipBlanks]
    have hnone : cut? [']'] r = none :=
      cut?_eq_none (hblank ▸ notMem_of_blank (all_blankRun r) (by decide))
    cases hcut.symm.trans hnone
  | cons c cs =>
    have hc := isBlank_of_skipBlanks hskip
    rw [cut?_bracket hskip] at hcut
    split at hcut
    · next hopen =>
      subst hopen
      obtain ⟨rfl, rfl⟩ := Prod.mk.inj (Option.some.inj hcut)
      rw [directivePath?_blank (all_blankRun r)] at h
      split at h
      · next hlength =>
        obtain rfl := Option.some.inj h
        have hrun : blankRun r ≠ [] := List.ne_nil_of_length_pos (by omega)
        cases hmore : cut? [']'] cs with
        | none => exact .inl (by simp [hrun, hmore, hlength])
        | some p => exact .inr ⟨trim (']' :: p.1), p.2, by simp [hrun, hmore], by simp [trim_cons hc]⟩
      · cases h
    · obtain ⟨⟨b, rest'⟩, hb, he⟩ := Option.map_eq_some_iff.1 hcut
      obtain ⟨rfl, rfl⟩ := Prod.mk.inj he
      rw [directivePath?_append (all_blankRun r) hc] at h
      split at h
      · cases h
      · next hrun => exact .inl (by simp [hrun, hb, Option.some.inj h])

theorem readBare_eq_some {t rest : Text} {a : Option Text} :
    readBare t = some (a, rest) ↔ ∃ r path, afterWord? t = some r ∧ path? r = some (path, rest) ∧ some path = a := by
  simp only [readBare, Option.bind_eq_bind, Option.bind_eq_some_iff]
  constructor
  · rintro ⟨r, hr, ⟨path, rest'⟩, hpath, h⟩
    obtain ⟨ha, rfl⟩ := Prod.mk.inj (Option.some.inj h)
    exact ⟨r, path, hr, hpath, ha⟩
  · rintro ⟨r, path, hr, hpath, rfl⟩
    exact ⟨r, hr, (path, rest), hpath, rfl⟩

theorem readQuoted_cons {q : Char} {cs rest : Text} {a : Option Text} :
    readQuoted (q :: cs) = some (a, rest) ↔ none = a ∧ isQuote q ∧ ∃ r body path e, afterWord? cs = some r ∧
      cut? [']'] r = some (body, e :: rest) ∧ directivePath? body = some path ∧ isQuote e := by
  simp only [readQuoted, Option.bind_eq_bind, Option.bind_eq_some_iff]
  constructor
  · rintro ⟨r, hr, ⟨body, behind⟩, hcut, path, hbody, h⟩
    cases behind with
    | nil => cases h
    | cons e behind =>
      dsimp only at h
      split at h
      · next hquotes =>
        obtain ⟨ha, rfl⟩ := Prod.mk.inj (Option.some.inj h)
        rw [Bool.and_eq_true] at hquotes
        exact ⟨ha, hquotes.1, r, body, path, e, hr, hcut, hbody, hquotes.2⟩
      · cases h
  · rintro ⟨rfl, hq, r, body, path, e, hr, hcut, hbody, he⟩
    exact ⟨r, hr, (body, e :: rest), hcut, path, hbody, by simp [hq, he]⟩

/-- A directive takes at least its bracket. -/
theorem readBare_split {t rest : Text} {a : Option Text} (h : readBare t = some (a, rest)) :
    ∃ s, '[' :: s ++ rest = t := by
  obtain ⟨r, path, hr, hpath, -⟩ := readBare_eq_some.1 h
  obtain ⟨cs, rfl, hsuffix⟩ := afterWord?_eq_some hr
  obtain ⟨s, hs⟩ := (path?_suffix hpath).trans hsuffix
  exact ⟨s, by rw [List.cons_append, hs]⟩

/-- Between quotes a directive is read as it is without them. -/
theorem readQuoted_iff {q : Char} {cs rest : Text} {a : Option Text}
    (hpath : ∀ path behind, isQuote q → readBare cs = some (some path, behind) → ']' ∉ path) :
    readQuoted (q :: cs) = some (a, rest) ↔
      none = a ∧ isQuote q ∧ ∃ path e, readBare cs = some (some path, e :: rest) ∧ isQuote e := by
  rw [readQuoted_cons]
  refine and_congr_right fun _ => and_congr_right fun hq => ?_
  constructor
  · rintro ⟨r, body, path, e, hr, hcut, hbody, he⟩
    obtain hread | ⟨path', rest', hread, hmem⟩ := path?_of_cut? hcut hbody
    · exact ⟨path, e, readBare_eq_some.2 ⟨r, path, hr, hread, rfl⟩, he⟩
    · exact absurd hmem (hpath path' rest' hq (readBare_eq_some.2 ⟨r, path', hr, hread, rfl⟩))
  · rintro ⟨path, e, hread, he⟩
    obtain ⟨r, path', hr, hpath', heq⟩ := readBare_eq_some.1 hread
    obtain rfl := Option.some.inj heq
    obtain ⟨body, hcut, hbody⟩ := cut?_of_path? hpath' (hpath _ _ hq hread)
    exact ⟨r, body, path', e, hr, hcut, hbody, he⟩

/-! The directives of a text -/

/-- Does a directive stand directly between two quotes for which the test holds? -/
def between (fits : Char → Char → Bool) : Option Char → List (Piece (Option Text)) → Bool
  | some q, .char e :: _ => isQuote q && isQuote e && fits q e
  | _, _ => false

/-- The pieces behind a character, with the directives that stand directly between two quotes for which the test
holds as text. -/
def spare (fits : Char → Char → Bool) : Option Char → List (Piece (Option Text)) → List (Piece (Option Text))
  | _, [] => []
  | _, .char c :: ps => .char c :: spare fits (some c) ps
  | before, .tag path s :: ps => .tag (if between fits before ps then none else path) s :: spare fits none ps

/-- Does a directive stand directly between two quotes for which the test holds, behind a character or anywhere? -/
def stands (fits : Char → Char → Bool) : Option Char → List (Piece (Option Text)) → Bool
  | _, [] => false
  | _, .char c :: ps => stands fits (some c) ps
  | before, .tag path _ :: ps => (path.isSome && between fits before ps) || stands fits none ps

/-- Is a piece a directive that shares a quote with the next one? -/
def sharesNext : Piece (Option Text) → List (Piece (Option Text)) → Bool
  | .tag _ _, .char q :: .tag _ _ :: _ => isQuote q
  | _, _ => false

/-- Does a quote stand directly between two directives? -/
def sharesQuote : List (Piece (Option Text)) → Bool
  | [] => false
  | p :: ps => sharesNext p ps || sharesQuote ps

/-- Is a piece a quote in front of a directive that holds a closing bracket in its path? -/
def bracketNext : Piece (Option Text) → List (Piece (Option Text)) → Bool
  | .char q, .tag (some path) _ :: _ => isQuote q && path.contains ']'
  | _, _ => false

/-- Does a directive behind a quote hold a closing bracket in its path? -/
def quotesBracket : List (Piece (Option Text)) → Bool
  | [] => false
  | p :: ps => bracketNext p ps || quotesBracket ps

/-- The paths of the directives that are to be replaced. -/
def requested (ps : List (Piece (Option Text))) : List Text :=
  ps.filterMap fun
    | .char _ => none
    | .tag path _ => path

/-- Pieces with directives without path as single characters. -/
def loosen (ps : List (Piece (Option Text))) : List (Piece (Option Text)) :=
  ps.flatMap fun
    | .tag none s => chars s
    | p => [p]

theorem readBare_of_ne {c : Char} (hc : c ≠ '[') (cs : Text) : readBare (c :: cs) = none := by
  cases h : readBare (c :: cs) with
  | none => rfl
  | some p =>
    obtain ⟨s, hs⟩ := readBare_split h
    exact absurd (List.cons.inj hs).1.symm hc

theorem isQuote_ne_bracket {q : Char} (hq : isQuote q) : q ≠ '[' := by
  rintro rfl
  revert hq
  decide

theorem readQuoted_bracket (cs : Text) : readQuoted ('[' :: cs) = none :=
  Option.eq_none_iff_forall_not_mem.2 fun _ h => absurd (readQuoted_cons.1 h).2.1 (by decide)

/-- A directive is cut out alike with regard to quotes and without. -/
theorem scan_of_readBare {t rest : Text} {a : Option Text} (h : readBare t = some (a, rest)) :
    ∃ s, s ++ rest = t ∧ s ≠ [] ∧ scan readBare t = .tag a s :: scan readBare rest ∧
      scan read t = .tag a s :: scan read rest := by
  obtain ⟨s, rfl⟩ := readBare_split h
  have hread : read ('[' :: s ++ rest) = some (a, rest) := by
    rw [read, h, List.cons_append, readQuoted_bracket, Option.none_or]
  exact ⟨'[' :: s, rfl, List.cons_ne_nil _ _, scan_of_read (List.cons_ne_nil _ _) h,
    scan_of_read (List.cons_ne_nil _ _) hread⟩

/-- A directive between quotes is cut out together with them, or by itself. -/
theorem scan_of_readQuoted {q : Char} {cs rest : Text} {a : Option Text}
    (hpath : ∀ path behind, isQuote q → readBare cs = some (some path, behind) → ']' ∉ path)
    (h : readQuoted (q :: cs) = some (a, rest)) :
    ∃ path s e, s ++ e :: rest = cs ∧ isQuote q ∧ isQuote e ∧
      scan readBare (q :: cs) = .char q :: .tag (some path) s :: .char e :: scan readBare rest ∧
      scan read (q :: cs) = .tag none (q :: s ++ [e]) :: scan read rest := by
  obtain ⟨ha, hq, path, e, hread, he⟩ := (readQuoted_iff hpath).1 h
  obtain ⟨s, rfl, -, hs, -⟩ := scan_of_readBare hread
  have hscan : scan read (q :: s ++ [e] ++ rest) = .tag none (q :: s ++ [e]) :: scan read rest := by
    refine scan_of_read (List.cons_ne_nil _ _) ?_
    rw [List.append_assoc, List.cons_append, List.singleton_append, read, h, ha, Option.some_or]
  rw [List.append_assoc, List.cons_append, List.singleton_append] at hscan
  exact ⟨path, s, e, rfl, hq, he, by rw [scan_of_skip (readBare_of_ne (isQuote_ne_bracket hq) _), hs,
    scan_of_skip (readBare_of_ne (isQuote_ne_bracket he) _)], hscan⟩

/-- A directive is the first piece only if it is read. -/
theorem readBare_of_scan {t : Text} {a : Option Text} {s : Text} {ps : List (Piece (Option Text))}
    (h : scan readBare t = .tag a s :: ps) : ∃ rest, readBare t = some (a, rest) ∧ scan readBare rest = ps := by
  cases t with
  | nil => simp at h
  | cons c cs =>
    cases hread : readBare (c :: cs) with
    | none => rw [scan_of_skip hread] at h; cases h
    | some p =>
      obtain ⟨b, rest⟩ := p
      obtain ⟨x, -, -, hscan, -⟩ := scan_of_readBare hread
      rw [hscan] at h
      obtain ⟨htag, rfl⟩ := List.cons.inj h
      exact ⟨rest, by rw [(Piece.tag.inj htag).1], rfl⟩

/-- A directive between quotes of any kind is read with them. -/
theorem readQuoted_of_between {q : Char} {cs s : Text} {a : Option Text} {ps : List (Piece (Option Text))}
    (hpath : ∀ path behind, isQuote q → readBare cs = some (some path, behind) → ']' ∉ path)
    (hscan : scan readBare cs = .tag a s :: ps) (h : between (fun _ _ => true) (some q) ps) :
    readQuoted (q :: cs) ≠ none := by
  obtain ⟨rest, hread, rfl⟩ := readBare_of_scan hscan
  obtain ⟨-, path, -, -, rfl⟩ := readBare_eq_some.1 hread
  cases rest with
  | nil => simp [between] at h
  | cons e rest =>
    cases hbare : readBare (e :: rest) with
    | some p =>
      obtain ⟨a', rest'⟩ := p
      obtain ⟨s', -, -, hs', -⟩ := scan_of_readBare hbare
      rw [hs'] at h
      cases h
    | none =>
      rw [scan_of_skip hbare, between, Bool.and_true, Bool.and_eq_true] at h
      rw [(readQuoted_iff hpath).2 ⟨rfl, h.1, path, e, hread, h.2⟩]
      nofun

theorem loosen_cons (p : Piece (Option Text)) (ps : List (Piece (Option Text))) :
    loosen (p :: ps) = (match p with | .tag none s => chars s | p => [p]) ++ loosen ps := rfl

/-- Reading in one go is reading without regard to quotes, where what stands between two of them is text. -/
theorem loosen_scan {t : Text} {before : Option Char} (hshared : sharesQuote (scan readBare t) = false)
    (hbracket : quotesBracket (scan readBare t) = false)
    (hbefore : ∀ path s ps, scan readBare t = .tag path s :: ps → between (fun _ _ => true) before ps = false) :
    loosen (scan read t) = loosen (spare (fun _ _ => true) before (scan readBare t)) := by
  induction hn : t.length using Nat.strongRecOn generalizing t before with
  | ind n ih =>
    subst hn
    cases t with
    | nil => simp [spare]
    | cons c cs =>
      cases hbare : readBare (c :: cs) with
      | some p =>
        obtain ⟨a, rest⟩ := p
        obtain ⟨s, hs, hne, hscan, hread⟩ := scan_of_readBare hbare
        have hlength : rest.length < (c :: cs).length := by
          rw [← hs, List.length_append]
          exact Nat.lt_add_of_pos_left (List.length_pos_iff.2 hne)
        rw [hscan] at hshared hbracket
        have hrest : loosen (scan read rest) = loosen (spare (fun _ _ => true) none (scan readBare rest)) :=
          ih rest.length hlength (Bool.or_eq_false_iff.1 hshared).2 (Bool.or_eq_false_iff.1 hbracket).2
            (fun _ _ _ _ => rfl) rfl
        rw [hread, hscan, spare, hbefore _ _ _ hscan, if_neg Bool.false_ne_true, loosen_cons, loosen_cons, hrest]
      | none =>
        have hscan := scan_of_skip hbare
        rw [hscan] at hshared hbracket
        have hpath : ∀ path behind, isQuote c → readBare cs = some (some path, behind) → ']' ∉ path := by
          intro path behind hc hread
          obtain ⟨s, -, -, hs, -⟩ := scan_of_readBare hread
          rw [hs, quotesBracket, bracketNext, hc] at hbracket
          simpa using (Bool.or_eq_false_iff.1 hbracket).1
        cases hquoted : readQuoted (c :: cs) with
        | some p =>
          obtain ⟨a, rest⟩ := p
          obtain ⟨path, s, e, rfl, hc, he, hbare', hread⟩ := scan_of_readQuoted hpath hquoted
          obtain ⟨-, htail⟩ := List.cons.inj (hscan.symm.trans hbare')
          rw [htail] at hshared hbracket
          simp only [sharesQuote, quotesBracket, Bool.or_eq_false_iff] at hshared hbracket
          have hrest : ∀ path s ps, scan readBare rest = .tag path s :: ps →
              between (fun _ _ => true) (some e) ps = false := by
            intro path s ps hps
            have hnext := hshared.2.1
            rw [hps, sharesNext, he] at hnext
            cases hnext
          rw [hread, hbare', spare, spare, spare, loosen_cons, loosen_cons, loosen_cons, loosen_cons,
            ih rest.length (by simp; omega) hshared.2.2.2 hbracket.2.2.2 hrest rfl]
          simp [between, hc, he]
        | none =>
          have hskip : read (c :: cs) = none := by rw [read, hquoted, hbare, Option.none_or]
          rw [scan_of_skip hskip, hscan, spare, loosen_cons, loosen_cons,
            ih cs.length (Nat.lt_succ_self _) (Bool.or_eq_false_iff.1 hshared).2 (Bool.or_eq_false_iff.1 hbracket).2
              (fun path s ps hps => Bool.eq_false_iff.2 fun h => readQuoted_of_between hpath hps h hquoted) rfl]

/-! What is replaced -/

@[simp] theorem requested_char (c : Char) (ps : List (Piece (Option Text))) :
    requested (.char c :: ps) = requested ps := rfl

@[simp] theorem requested_none (s : Text) (ps : List (Piece (Option Text))) :
    requested (.tag none s :: ps) = requested ps := rfl

@[simp] theorem requested_some (path s : Text) (ps : List (Piece (Option Text))) :
    requested (.tag (some path) s :: ps) = path :: requested ps := rfl

theorem requested_append (ps qs : List (Piece (Option Text))) :
    requested (ps ++ qs) = requested ps ++ requested qs := List.filterMap_append

theorem requested_chars (t : Text) : requested (chars t) = [] := by
  induction t with
  | nil => rfl
  | cons c t ih => exact ih

theorem requested_loosen (ps : List (Piece (Option Text))) : requested (loosen ps) = requested ps := by
  induction ps with
  | nil => rfl
  | cons p ps ih =>
    rw [loosen_cons, requested_append, ih]
    rcases p with c | ⟨_ | path, s⟩
    · rfl
    · rw [requested_chars]; rfl
    · rfl

section

variable {tree : FileTree} {root : Location} {chain : List Location} {current : Text}

theorem expand_chars (t : Text) (ps : List (Piece (Option Text))) :
    expand tree root chain current (chars t ++ ps) =
      (Expansion.verbatim t).append (expand tree root chain current ps) := by
  induction t with
  | nil =>
    show expand tree root chain current ps = _
    unfold Expansion.append
    split
    · rfl
    · next hrest => simp [Expansion.verbatim, ← hrest]
  | cons c t ih =>
    rw [chars_cons, List.cons_append, expand_cons, ih]
    unfold Expansion.append
    cases h : (expand tree root chain current ps).text with
    | none => simp [h]
    | some u => simp [piece, Expansion.verbatim]

theorem expand_loosen (ps : List (Piece (Option Text))) :
    expand tree root chain current (loosen ps) = expand tree root chain current ps := by
  induction ps with
  | nil => rfl
  | cons p ps ih =>
    rw [loosen_cons, expand_cons]
    rcases p with c | ⟨_ | path, s⟩
    · exact (expand_cons (.char c) (loosen ps)).trans (by rw [ih])
    · rw [expand_chars, ih]; rfl
    · exact (expand_cons (.tag (some path) s) (loosen ps)).trans (by rw [ih])

end

theorem between_mono {fits fits' : Char → Char → Bool} (hfits : ∀ q e, fits q e → fits' q e) {before : Option Char}
    {ps : List (Piece (Option Text))} (h : between fits before ps) : between fits' before ps := by
  unfold between at h ⊢
  split at h
  · next q e ps =>
    rw [Bool.and_eq_true] at h ⊢
    exact ⟨h.1, hfits q e h.2⟩
  · cases h

/-- The more directives are text, the fewer are replaced. -/
theorem requested_spare_sublist {fits fits' : Char → Char → Bool} (hfits : ∀ q e, fits q e → fits' q e)
    (before : Option Char) (ps : List (Piece (Option Text))) :
    (requested (spare fits' before ps)).Sublist (requested (spare fits before ps)) := by
  induction ps generalizing before with
  | nil => exact List.Sublist.refl _
  | cons p ps ih =>
    rcases p with c | ⟨_ | path, s⟩
    · exact ih (some c)
    · simpa [spare] using ih none
    · cases hfit : between fits before ps
      · cases hfit' : between fits' before ps
        · simpa [spare, hfit, hfit'] using ih none
        · simpa [spare, hfit, hfit'] using (ih none).cons path
      · simpa [spare, hfit, between_mono hfits hfit] using ih none

/-- It makes no difference which of the two quotes is which, unless a directive stands between different ones. -/
theorem requested_spare_iff (before : Option Char) (ps : List (Piece (Option Text))) :
    requested (spare (fun _ _ => true) before ps) = requested (spare (· == ·) before ps) ↔
      stands (· != ·) before ps = false := by
  induction ps generalizing before with
  | nil => simp [spare, stands]
  | cons p ps ih =>
    rcases p with c | ⟨_ | path, s⟩
    · exact ih (some c)
    · simpa [spare, stands] using ih none
    · have hsplit : between (fun _ _ => true) before ps =
          (between (· == ·) before ps || between (· != ·) before ps) := by
        unfold between
        split
        · next q e ps => cases hqe : q == e <;> simp [hqe, bne]
        · rfl
      have hboth : (between (· == ·) before ps && between (· != ·) before ps) = false := by
        unfold between
        split
        · next q e ps => cases hqe : q == e <;> simp [hqe, bne]
        · rfl
      cases hsame : between (· == ·) before ps <;> cases hdiff : between (· != ·) before ps
      · simpa [spare, stands, hsplit, hsame, hdiff] using ih none
      · have hfewer : (requested (spare (fun _ _ => true) none ps)).Sublist (requested (spare (· == ·) none ps)) :=
          requested_spare_sublist (fun _ _ _ => rfl) none ps
        have hlength := hfewer.length_le
        refine iff_of_false (fun h => ?_) (by simp [stands, hdiff])
        have hlonger := congrArg List.length h
        simp only [spare, hsplit, hsame, hdiff, Bool.or_true, if_true, Bool.false_eq_true, if_false, requested_none,
          requested_some, List.length_cons] at hlonger
        omega
      · simpa [spare, stands, hsplit, hsame, hdiff] using ih none
      · simp [hsame, hdiff] at hboth

/-- Where no quote belongs to two directives, those and only those directives are text that stand directly between
two quotes, and all others are replaced one by one. These are the directives between two quotes of one kind, unless
some directive stands between quotes of both. -/
theorem resolve_spares_iff {content : Text} (hshared : sharesQuote (scan readBare content) = false)
    (hbracket : quotesBracket (scan readBare content) = false) :
    (∀ tree root current visited, resolve tree root current visited content =
      (chain? root current visited).elim .ended fun chain =>
        expand tree root chain current (spare (fun _ _ => true) none (scan readBare content))) ∧
    (requested (scan read content) = requested (spare (· == ·) none (scan readBare content)) ↔
      stands (· != ·) none (scan readBare content) = false) := by
  have hloosen : loosen (scan read content) = loosen (spare (fun _ _ => true) none (scan readBare content)) :=
    loosen_scan hshared hbracket fun _ _ _ _ => rfl
  constructor
  · intro tree root current visited
    rw [resolve_eq]
    congr 1
    funext chain
    rw [← expand_loosen, hloosen, expand_loosen]
  · rw [← requested_loosen, hloosen, requested_loosen]
    exact requested_spare_iff none _

/-- The first directive stands between quotes, the second is replaced, and so is the third, behind a quote alone. -/
theorem resolve_spares_beside : ∃ content : Text, content = text "\"[include a]\" [include a] '[include a]" ∧
    sharesQuote (scan readBare content) = false ∧ quotesBracket (scan readBare content) = false ∧
    requested (scan read content) = requested (spare (· == ·) none (scan readBare content)) := by
  refine ⟨_, rfl, by decide +kernel, by decide +kernel, ?_⟩
  exact (resolve_spares_iff (by decide +kernel) (by decide +kernel)).2.2 (by decide +kernel)

/-- A directive between quotes of both kinds is text. -/
theorem resolve_mixed : ∃ content : Text, content = text "\"[include a]'" ∧
    sharesQuote (scan readBare content) = false ∧ quotesBracket (scan readBare content) = false ∧
    requested (spare (· == ·) none (scan readBare content)) = [text "a"] ∧
    (resolve letterTree [] [] [] content).text = some content ∧
    (resolve letterTree [] [] [] (text "[include a]")).text = some (text "A") := by
  have hmixed : (resolveWithin letterTree [] 2 [] [] (text "\"[include a]'")).map (·.text) =
      some (some (text "\"[include a]'")) := by decide +kernel
  have hplain : (resolveWithin letterTree [] 2 [] [] (text "[include a]")).map (·.text) = some (some (text "A")) := by
    decide +kernel
  rw [resolveWithin_eq files_letterTree] at hmixed hplain
  exact ⟨_, rfl, by decide +kernel, by decide +kernel, by decide +kernel, Option.some.inj hmixed,
    Option.some.inj hplain⟩

end Include

end PageTemplate
