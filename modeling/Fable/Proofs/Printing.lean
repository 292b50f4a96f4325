import Fable.Proofs.Literals

namespace Fable.Json
def opens (c : Char) : Bool :=
  !isSpace c && c != '\ufeff' && c != ']' && c != '\x7d'

/-- The characters are those of the value: it is what is read from them, whatever stands behind. -/
structure Printed (v : Value) (cs : List Char) : Prop where
  solid : ∃ c ds, cs = c :: ds ∧ opens c
  clean : '\r' ∉ cs
  read : ∀ {n rest}, cs.length ≤ n → Stops rest → value .file 0 n (cs ++ rest) = .ok (v, rest)

theorem toList_pushn (s : String) (c : Char) (k : Nat) :
    (s.pushn c k).toList = s.toList ++ List.replicate k c := by
  induction k with
  | zero => simp [String.pushn, Nat.repeat]
  | succ k ih =>
    rw [List.replicate_succ', ← List.append_assoc, ← ih]
    simp [String.pushn, Nat.repeat]

theorem toList_margin (depth : Nat) :
    (margin depth).toList = '\n' :: List.replicate (2 * depth) ' ' := by
  rw [margin, String.toList_append, toList_pushn]
  rfl

theorem isSpace_of_opens {c : Char} (h : opens c) : isSpace c = false := by
  simp only [opens, Bool.and_eq_true, Bool.not_eq_true'] at h
  exact h.1.1.1

theorem skip_margin {cs : List Char} {c : Char} {ds : List Char} (hcs : cs = c :: ds)
    (hc : isSpace c = false) (depth : Nat) : skip ((margin depth).toList ++ cs) = cs := by
  rw [toList_margin, skip, List.cons_append, List.dropWhile_cons_of_pos rfl,
    List.dropWhile_append_of_pos]
  · rw [hcs, List.dropWhile_cons_of_neg (by simp [hc])]
  · simp [isSpace]

theorem printed_none : Printed .none "null".toList where
  solid := ⟨_, _, rfl, by decide⟩
  clean := by decide
  read {n rest} hn _ := by
    cases n with
    | zero => simp at hn
    | succ n => rfl

theorem printed_bool (b : Bool) : Printed (.bool b) (if b then "true" else "false").toList where
  solid := by cases b <;> exact ⟨_, _, rfl, by decide⟩
  clean := by cases b <;> decide
  read {n rest} hn _ := by
    cases n with
    | zero => cases b <;> simp at hn
    | succ n => cases b <;> rfl

theorem value_of_scalar {origin : Origin} {stamp : Nat} {c : Char} {cs : List Char}
    (hc : c ≠ '"' ∧ c ≠ '\x7b' ∧ c ≠ '[') (n : Nat) :
    value origin stamp (n + 1) (c :: cs) = scalar origin stamp (c :: cs) := by
  rw [value]
  all_goals simp_all

theorem printed_int {n : Int} {t : String} (h : Value.wholeText n = .ok t) :
    Printed (.int n) t.toList := by
  obtain ⟨ht, -⟩ := toList_wholeText h
  have hdigits : ∀ c ∈ t.toList, c = '-' ∨ c.isDigit = true := by
    intro c hc
    rw [ht] at hc
    rcases List.mem_append.1 hc with hc | hc
    · split at hc
      · exact .inl (List.mem_singleton.1 hc)
      · cases hc
    · exact .inr (Nat.isDigit_of_mem_toDigits (by decide) (by decide) hc)
  have hfirst : ∃ c ds, t.toList = c :: ds := by
    cases hs : t.toList with
    | nil =>
      rw [ht] at hs
      exact absurd (List.append_eq_nil_iff.1 hs).2 Nat.toDigits_ne_nil
    | cons c ds => exact ⟨c, ds, rfl⟩
  obtain ⟨c, ds, hcs⟩ := hfirst
  have hc : c = '-' ∨ c.isDigit = true := hdigits c (by rw [hcs]; exact List.mem_cons_self)
  have hkind (e : Char) (he : e ≠ '-') (he' : e.isDigit = false) : c ≠ e := by
    rintro rfl
    rcases hc with hc | hc
    · exact he hc
    · rw [he'] at hc
      cases hc
  refine ⟨⟨c, ds, hcs, ?_⟩, fun hr ↦ ?_, ?_⟩
  · simp [opens, isSpace, hkind ']' (by decide) (by decide), hkind '\x7d' (by decide) (by decide),
      hkind '\ufeff' (by decide) (by decide), hkind ' ' (by decide) (by decide),
      hkind '\t' (by decide) (by decide),
      hkind '\n' (by decide) (by decide), hkind '\r' (by decide) (by decide)]
  · rcases hdigits _ hr with hr | hr <;> revert hr <;> decide
  · intro m rest hm hrest
    have hscalar := scalar_wholeText h hrest
    rw [hcs] at hm hscalar ⊢
    cases m with
    | zero => simp at hm
    | succ m =>
      rw [List.cons_append] at hscalar ⊢
      rw [value_of_scalar ⟨hkind _ (by decide) (by decide), hkind _ (by decide) (by decide),
        hkind _ (by decide) (by decide)⟩, hscalar]

theorem notMem_escapedUnit (u : Nat) : '\r' ∉ escapedUnit u := by
  have hdigit : ∀ d < 16, '\r' ≠ Text.hexDigit d := by decide
  have hhex : ∀ k u, '\r' ∉ Text.hex k u := by
    intro k
    induction k with
    | zero => exact fun u ↦ List.not_mem_nil
    | succ k ih => simp [Text.hex, ih, hdigit _ (Nat.mod_lt _ (by decide : 0 < 16))]
  simp [escapedUnit, hhex]

theorem notMem_escapedChar (c : Char) : '\r' ∉ escapedChar c := by
  unfold escapedChar
  split
  · next h => rcases h with rfl | rfl <;> decide
  split
  · decide
  split
  · decide
  split
  · decide
  split
  · decide
  split
  · decide
  split
  · next hc =>
    rw [List.mem_singleton]
    rintro rfl
    exact absurd hc.1 (by decide)
  split
  · exact notMem_escapedUnit _
  · simp [notMem_escapedUnit]

theorem toList_stringText (s : String) :
    (stringText s).toList = '"' :: (s.toList.flatMap escapedChar ++ ['"']) := by
  simp [stringText]

theorem printed_text (s : String) : Printed (.text s) (stringText s).toList where
  solid := ⟨_, _, toList_stringText s, by decide⟩
  clean := by
    rw [toList_stringText]
    simp [notMem_escapedChar]
  read {n rest} hn _ := by
    rw [toList_stringText] at hn ⊢
    cases n with
    | zero => simp at hn
    | succ n =>
      rw [List.cons_append, List.append_assoc, value, List.singleton_append, string_stringText]
      rfl

theorem toList_enclosed {left right t : String} {depth : Nat} (ts : List String) :
    (enclosed left right depth (t :: ts)).toList = left.toList ++ ((margin (depth + 1)).toList ++
      ((',' :: (margin (depth + 1)).toList).intercalate (t.toList :: ts.map String.toList) ++
        ((margin depth).toList ++ right.toList))) := by
  simp [enclosed]

theorem stops_margin (depth : Nat) (rest : List Char) : Stops ((margin depth).toList ++ rest) := by
  intro c hc
  rw [toList_margin] at hc
  exact .inr (Option.some.inj hc).symm

theorem stops_comma (rest : List Char) : Stops (',' :: rest) :=
  fun _ hc ↦ .inl (Option.some.inj hc).symm

theorem intercalate_cons_cons {α : Type} (sep x y : List α) (xs : List (List α)) :
    sep.intercalate (x :: y :: xs) = x ++ (sep ++ sep.intercalate (y :: xs)) := by
  simp [List.intercalate]

theorem notMem_margin (depth : Nat) : '\r' ∉ (margin depth).toList := by
  rw [toList_margin]
  simp

theorem notMem_intercalate (depth : Nat) {css : List (List Char)} (h : ∀ cs ∈ css, '\r' ∉ cs) :
    '\r' ∉ (',' :: (margin depth).toList).intercalate css := by
  induction css with
  | nil => exact List.not_mem_nil
  | cons cs css ih =>
    have hcs := h cs List.mem_cons_self
    cases css with
    | nil => simpa [List.intercalate] using hcs
    | cons ds css =>
      rw [intercalate_cons_cons]
      have hrest := ih fun es hes ↦ h es (List.mem_cons_of_mem _ hes)
      simp [hcs, hrest, notMem_margin]

/-- The parts of a container: they are read from their characters one after another, between two
brackets. -/
structure Row {α : Type} (left right : Char) (P : α → List Char → Prop)
    (read : Nat → List α → List Char → Read Value) (make : List α → Value) : Prop where
  left_opens : opens left
  clean_brackets : left ≠ '\r' ∧ right ≠ '\r'
  right_closes : isSpace right = false
  solid : ∀ {x cs}, P x cs → ∃ c ds, cs = c :: ds ∧ opens c
  clean : ∀ {x cs}, P x cs → '\r' ∉ cs
  none : ∀ n rest, value .file 0 (n + 1) (left :: right :: rest) = .ok (make [], rest)
  some : ∀ {n cs c ds}, skip cs = c :: ds → opens c →
    value .file 0 (n + 1) (left :: cs) = read n [] (c :: ds)
  next : ∀ {x cs n done}, P x cs → cs.length ≤ n →
    ∀ rest, read (n + 1) done (cs ++ ',' :: rest) = read n (x :: done) (skip rest)
  last : ∀ {x cs n done}, P x cs → cs.length ≤ n → ∀ rest, Stops rest → ∀ ds,
    skip rest = right :: ds →
    read (n + 1) done (cs ++ rest) = .ok (make (x :: done).reverse, ds)

namespace Row

variable {α : Type} {left right : Char} {P : α → List Char → Prop}
  {read : Nat → List α → List Char → Read Value}
  {make : List α → Value} (row : Row left right P read make) {x : α} {xs : List α} {cs : List Char}
  {css : List (List Char)}

include row

theorem exists_head (hx : P x cs) (sep rest : List Char) (css : List (List Char)) :
    ∃ c ds, sep.intercalate (cs :: css) ++ rest = c :: ds ∧ opens c := by
  obtain ⟨c, ds, rfl, hc⟩ := row.solid hx
  cases css with
  | nil => exact ⟨c, ds ++ rest, by simp [List.intercalate], hc⟩
  | cons es css =>
    rw [intercalate_cons_cons]
    exact ⟨c, _, rfl, hc⟩

/-- The parts between commas, each on a line of its own. -/
theorem read_eq (depth : Nat) (hx : P x cs) (hxs : List.Forall₂ P xs css) (done : List α)
    {n : Nat} (rest : List Char)
    (hn : ((',' :: (margin (depth + 1)).toList).intercalate (cs :: css)).length < n) :
    read n done ((',' :: (margin (depth + 1)).toList).intercalate (cs :: css) ++
      ((margin depth).toList ++ right :: rest)) = .ok (make (done.reverse ++ x :: xs), rest) := by
  induction hxs generalizing x cs done n with
  | nil =>
    obtain ⟨n, rfl⟩ := Nat.exists_eq_succ_of_ne_zero (Nat.ne_zero_of_lt hn)
    have hone : (',' :: (margin (depth + 1)).toList).intercalate [cs] = cs := by
      simp [List.intercalate]
    rw [hone] at hn ⊢
    rw [row.last hx (Nat.le_of_lt_succ hn) _ (stops_margin depth _) rest
      (skip_margin rfl row.right_closes depth),
      List.reverse_cons]
  | @cons y ds ys dss hy hys ih =>
    obtain ⟨n, rfl⟩ := Nat.exists_eq_succ_of_ne_zero (Nat.ne_zero_of_lt hn)
    rw [intercalate_cons_cons] at hn ⊢
    simp only [List.length_append, List.length_cons] at hn
    obtain ⟨c, es, hsolid, hc⟩ :=
      row.exists_head hy (',' :: (margin (depth + 1)).toList)
        ((margin depth).toList ++ right :: rest) dss
    rw [List.append_assoc, List.append_assoc, List.cons_append, row.next hx (by omega),
      skip_margin hsolid (isSpace_of_opens hc), ih hy (x :: done) (by omega),
      List.reverse_cons, List.append_assoc,
      List.singleton_append]

theorem notMem_of_forall₂ (h : List.Forall₂ P xs css) : ∀ cs ∈ css, '\r' ∉ cs := by
  induction h with
  | nil => exact fun _ hcs ↦ absurd hcs List.not_mem_nil
  | cons hx _ ih => exact List.forall_mem_cons.2 ⟨row.clean hx, ih⟩

theorem printed {ts : List String} (h : List.Forall₂ P xs (ts.map String.toList)) {l r : String}
    (hl : l.toList = [left]) (hr : r.toList = [right]) (depth : Nat) :
    Printed (make xs) (enclosed l r depth ts).toList := by
  cases ts with
  | nil =>
    cases h
    have hempty : (enclosed l r depth []).toList = [left, right] := by simp [enclosed, hl, hr]
    rw [hempty]
    refine ⟨⟨left, [right], rfl, row.left_opens⟩, ?_, fun {n rest} hn _ ↦ ?_⟩
    · simp [row.clean_brackets.1.symm, row.clean_brackets.2.symm]
    · cases n with
      | zero => simp at hn
      | succ n => exact row.none n rest
  | cons t ts =>
    have hclean := notMem_intercalate (depth + 1) (row.notMem_of_forall₂ h)
    rw [List.map_cons] at hclean
    cases h with
    | @cons x _ xs _ hx hxs =>
      rw [toList_enclosed, hl, hr]
      refine ⟨⟨left, _, rfl, row.left_opens⟩, ?_, fun {n rest} hn _ ↦ ?_⟩
      · simp [row.clean_brackets.1.symm, row.clean_brackets.2.symm, notMem_margin, hclean]
      · obtain ⟨c, ds, hsolid, hc⟩ := row.exists_head hx (',' :: (margin (depth + 1)).toList)
          ((margin depth).toList ++ right :: rest) (ts.map String.toList)
        cases n with
        | zero => simp at hn
        | succ n =>
          simp only [List.length_append, List.length_singleton] at hn
          have hskip := skip_margin hsolid (isSpace_of_opens hc) (depth + 1)
          rw [hsolid] at hskip
          simp only [List.append_assoc, List.cons_append, List.nil_append] at hsolid hskip ⊢
          rw [hsolid, row.some hskip hc, ← hsolid]
          exact row.read_eq depth hx hxs [] rest (by omega)

end Row

theorem row_items : Row '[' ']' Printed (items .file 0) .list where
  left_opens := by decide
  clean_brackets := by decide
  right_closes := by decide
  solid h := h.solid
  clean h := h.clean
  none _ _ := rfl
  some hskip hc := by
    rw [value, hskip]
    split
    · next hds =>
      rw [(List.cons.inj hds).1] at hc
      exact absurd hc (by decide)
    · rfl
  next hx hn rest := by
    have hskip : skip (',' :: rest) = ',' :: rest := rfl
    rw [items, hx.read hn (stops_comma _)]
    simp only [bind, Except.bind, hskip]
  last hx hn rest hrest ds hds := by
    rw [items, hx.read hn hrest]
    simp only [bind, Except.bind, hds]

def PrintedMember (e : Value × Value) (cs : List Char) : Prop :=
  ∃ x ds, e.1 = .text x ∧ Printed e.2 ds ∧ cs = (stringText x).toList ++ ':' :: ' ' :: ds

theorem PrintedMember.solid {e : Value × Value} {cs : List Char} (h : PrintedMember e cs) :
    ∃ c ds, cs = c :: ds ∧ opens c := by
  obtain ⟨x, ds, -, -, rfl⟩ := h
  rw [toList_stringText]
  exact ⟨_, _, rfl, by decide⟩

theorem PrintedMember.members_eq {e : Value × Value} {cs : List Char} (h : PrintedMember e cs)
    (done : List (Value × Value)) {n : Nat} (hn : cs.length ≤ n + 1)
    {rest : List Char} (hrest : Stops rest) :
    members .file 0 (n + 1) done (cs ++ rest) = match skip rest with
      | '\x7d' :: rest => .ok (.dict (e :: done).reverse, rest)
      | ',' :: rest => members .file 0 n (e :: done) (skip rest)
      | rest => trouble .comma rest := by
  obtain ⟨k, v⟩ := e
  obtain ⟨x, ds, rfl, hv, rfl⟩ := h
  obtain ⟨c, es, hds, hc⟩ := hv.solid
  have hskip : skip (' ' :: (ds ++ rest)) = ds ++ rest := by
    rw [skip, List.dropWhile_cons_of_pos rfl, hds, List.cons_append,
      List.dropWhile_cons_of_neg (by simp [isSpace_of_opens hc])]
  have hcolon (cs : List Char) : skip (':' :: cs) = ':' :: cs := rfl
  simp only [List.length_append, List.length_cons] at hn
  simp only [toList_stringText, List.cons_append, List.append_assoc, List.nil_append]
  rw [members, string_stringText]
  simp only [bind, Except.bind, hcolon, hskip]
  rewrite [hv.read (n := n) (by omega) hrest]
  rfl

theorem PrintedMember.clean {e : Value × Value} {cs : List Char} (h : PrintedMember e cs) :
    '\r' ∉ cs := by
  obtain ⟨x, ds, -, hds, rfl⟩ := h
  simp [(printed_text x).clean, hds.clean]

theorem row_members : Row '\x7b' '\x7d' PrintedMember (members .file 0) .dict where
  left_opens := by decide
  clean_brackets := by decide
  right_closes := by decide
  solid h := h.solid
  clean h := h.clean
  none _ _ := rfl
  some hskip hc := by
    rw [value, hskip]
    split
    · next hds =>
      rw [(List.cons.inj hds).1] at hc
      exact absurd hc (by decide)
    · rfl
  next hx hn rest := by
    have hskip : skip (',' :: rest) = ',' :: rest := rfl
    simp only [hx.members_eq _ (Nat.le_succ_of_le hn) (stops_comma _), hskip]
  last hx hn rest hrest ds hds := by
    simp only [hx.members_eq _ (Nat.le_succ_of_le hn) hrest, hds]

theorem exists_of_prettyItems {depth : Nat} {xs : List Value} {ts : List String}
    (hxs : ∀ x ∈ xs, ∀ depth t, pretty depth x = .ok t → Printed x t.toList)
    (h : prettyItems depth xs = .ok ts) : List.Forall₂ Printed xs (ts.map String.toList) := by
  induction xs generalizing ts with
  | nil =>
    cases h
    exact .nil
  | cons x xs ih =>
    rw [prettyItems] at h
    obtain ⟨t, ht, h⟩ := exists_of_bind_ok h
    obtain ⟨us, hus, h⟩ := exists_of_bind_ok h
    cases h
    exact .cons (hxs x List.mem_cons_self depth t ht)
      (ih (fun y hy ↦ hxs y (List.mem_cons_of_mem _ hy)) hus)

theorem exists_of_prettyMembers {depth : Nat} {es : List (Value × Value)} {ts : List String}
    (hes : ∀ e ∈ es, (∃ x, e.1 = .text x) ∧ ∀ depth t,
      pretty depth e.2 = .ok t → Printed e.2 t.toList)
    (h : prettyMembers depth es = .ok ts) :
    List.Forall₂ PrintedMember es (ts.map String.toList) := by
  induction es generalizing ts with
  | nil =>
    cases h
    exact .nil
  | cons e es ih =>
    obtain ⟨k, v⟩ := e
    obtain ⟨⟨x, rfl⟩, hv⟩ := hes _ List.mem_cons_self
    rw [prettyMembers] at h
    obtain ⟨name, hname, h⟩ := exists_of_bind_ok h
    cases hname
    obtain ⟨t, ht, h⟩ := exists_of_bind_ok h
    obtain ⟨us, hus, h⟩ := exists_of_bind_ok h
    cases h
    refine .cons ⟨x, t.toList, rfl, hv depth t ht, ?_⟩
      (ih (fun f hf ↦ hes f (List.mem_cons_of_mem _ hf)) hus)
    simp

theorem printed_of_pretty {v : Value} (hv : v.IsJson false) {depth : Nat} {t : String}
    (ht : pretty depth v = .ok t) : Printed v t.toList := by
  induction hv generalizing depth t with
  | none =>
    cases ht
    exact printed_none
  | bool b =>
    cases ht
    exact printed_bool b
  | int n => exact printed_int ht
  | float x hfloats => cases hfloats
  | nan k hfloats => cases hfloats
  | text s =>
    cases ht
    exact printed_text s
  | list _ ih =>
    obtain ⟨ts, hts, rfl⟩ := exists_of_map_ok ht
    exact row_items.printed (exists_of_prettyItems (fun x hx depth t ↦ ih x hx) hts) rfl rfl depth
  | dict hes _ ih =>
    obtain ⟨ts, hts, rfl⟩ := exists_of_map_ok ht
    have hmembers :=
      exists_of_prettyMembers (fun e he ↦ ⟨hes.exists_text he, fun depth t ↦ ih e he⟩) hts
    exact row_members.printed hmembers rfl rfl depth

/-- What is printed of a value without floats is read as that value. -/
theorem read_pretty {v : Value} (hv : v.IsJson false) {t : String} (ht : pretty 0 v = .ok t) :
    read .file 0 (t ++ "\n") = .ok v := by
  have hprinted := printed_of_pretty hv ht
  obtain ⟨c, ds, hcs, hc⟩ := hprinted.solid
  have hchars : (t ++ "\n").toList = t.toList ++ ['\n'] := by simp
  have hmark : (t.toList ++ ['\n']).head? ≠ some '\ufeff' := by
    rw [hcs]
    rintro ⟨⟩
    exact absurd hc (by decide)
  have hskip : skip (t.toList ++ ['\n']) = t.toList ++ ['\n'] := by
    rw [hcs, skip, List.cons_append, List.dropWhile_cons_of_neg (by simp [isSpace_of_opens hc])]
  have hend : Stops ['\n'] := fun c hc ↦ .inr (Option.some.inj hc).symm
  have hvalue := hprinted.read (n := 2 * (t.toList ++ ['\n']).length + 2)
    (by rw [List.length_append]; omega) hend
  rw [read, readAll, hchars]
  simp only [if_neg hmark, hskip, hvalue, bind, Except.bind]
  rfl

theorem notMem_pretty {v : Value} (hv : v.IsJson false) {t : String} (ht : pretty 0 v = .ok t) :
    '\r' ∉ (t ++ "\n").toList := by
  simp [(printed_of_pretty hv ht).clean]

end Fable.Json
