import Fable.Proofs.Subtrees

namespace Fable

namespace Value
theorem add_of_int? {v w : Value} {m n : ℤ} (hv : v.int? = some m) (hw : w.int? = some n) :
    v.add w = .ok (.int (m + n)) := by
  have hfloat {u : Value} {k : ℤ} (hu : u.int? = some k) : u.float? = Option.none := by
    cases u <;> simp_all [int?, float?]
  simp only [add, hfloat hv, hfloat hw, hv, hw]

end Value

namespace Store

variable {s t : Store}

def Sized (s : Store) : Prop := ∀ e ∈ s.records, e.2.size.int?.isSome

instance (s : Store) : Decidable s.Sized :=
  inferInstanceAs (Decidable (∀ e ∈ s.records, e.2.size.int?.isSome))

def Measured (s : Store) : Prop := ∀ e ∈ s.records, e.2.size.isNone ∨ e.2.size.int?.isSome

instance (s : Store) : Decidable s.Measured :=
  inferInstanceAs (Decidable (∀ e ∈ s.records, e.2.size.isNone ∨ e.2.size.int?.isSome))

theorem Sized.measured (hs : s.Sized) : s.Measured := fun e he ↦ .inr (hs e he)

def sizeOf (s : Store) (x : Value) : ℤ :=
  (s.property x (.text "size") (.int 0)).int?.getD 0

/-- The sizes of all that is inside an object. -/
noncomputable def contents (s : Store) (c : String) : ℤ :=
  ∑ y ∈ s.links.below s.names.toFinset c, s.sizeOf (.text y)

theorem Measured.int?_property (hs : s.Measured) (x : Value) :
    (s.property x (.text "size") (.int 0)).int? = some (s.sizeOf x) := by
  have hsome : (s.property x (.text "size") (.int 0)).int?.isSome := by
    rw [property]
    cases hf : s.find? x with
    | none => rfl
    | some r =>
      obtain ⟨e, he, -, rfl⟩ := exists_mem_of_find? s hf
      have hkey : Field.ofKey? (.text "size") = some .size := by decide
      simp only [hkey]
      split
      · rfl
      · next hsome => exact (hs e he).resolve_left hsome
  obtain ⟨n, hn⟩ := Option.isSome_iff_exists.1 hsome
  rw [sizeOf, hn, Option.getD_some]

theorem Sized.int?_property (hs : s.Sized) (x : Value) :
    (s.property x (.text "size") (.int 0)).int? = some (s.sizeOf x) :=
  hs.measured.int?_property x

theorem children_congr (s : Store) {c d : Value} (hc : c.isText) (h : c.string? = d.string?) :
    s.children c = s.children d := by
  have hd : d.isText := by rwa [Value.isText, ← h]
  simp only [children, Value.alike_eq_of_isText _ hc, Value.alike_eq_of_isText _ hd, h]

theorem Tidy.of_mem_children_of_isPlace (ht : s.Tidy) {c x : Value} (hc : c.IsPlace)
    (hx : x ∈ s.children c) :
    x.isText ∧ s.isDefined x ∧ (s.parent x).string? = c.string? := by
  obtain ⟨a, ha, rfl⟩ := List.mem_map.1 hx
  obtain ⟨ha, hac⟩ := List.mem_filter.1 ha
  obtain ⟨htext, hdefined⟩ := ht.isDefined a ha
  obtain ⟨hplace, hcontainer⟩ := ht.container a ha
  rw [Value.alike_eq_of_isPlace hplace hc, beq_iff_eq] at hac
  exact ⟨htext, hdefined, hcontainer.symm.trans hac⟩

theorem Tidy.of_mem_children (ht : s.Tidy) {c x : Value} (hc : c.isText) (hx : x ∈ s.children c) :
    x.isText ∧ s.isDefined x ∧ (s.parent x).string? = c.string? :=
  ht.of_mem_children_of_isPlace (.of_isText hc) hx

theorem successor_of_fresh {x : Value} {before after : List Value} (hx : x.isText)
    (hb : ∀ y ∈ before, Value.alike y x = false) :
    successor x (before ++ x :: after) = .ok (after.headD .none) := by
  induction before with
  | nil =>
    have hself : Value.alike x x := by rw [Value.alike_eq_of_isText x hx, beq_self_eq_true]
    simp [successor, hself]
  | cons y before ih =>
    rw [List.cons_append, successor, hb y (by simp), if_neg Bool.false_ne_true]
    exact ih fun z hz ↦ hb z (by simp [hz])

/-- After an object in a container comes the one that arrived there after it. -/
theorem Tidy.next_eq (ht : s.Tidy) {c x : Value} (hc : c.isText) {before after : List Value}
    (h : s.children c = before ++ x :: after) : s.next x = .ok (after.headD .none) := by
  obtain ⟨hx, -, hparent⟩ := ht.of_mem_children hc (x := x) (by simp [h])
  have hcontainer : (s.parent x).isText := by rwa [Value.isText, hparent]
  have hbefore : ∀ y ∈ before, Value.alike y x = false := by
    intro y hy
    have hpair := ht.children_pairwise c
    rw [h] at hpair
    have hne := (List.pairwise_append.1 hpair).2.2 y hy x (by simp)
    rw [Value.alike_eq_of_isText y hx, ← Value.same_eq_of_isText y hx]
    exact Bool.eq_false_iff.2 hne
  rw [next, if_neg (by simp [Value.isNone_eq_false_of_isText hcontainer]),
    children_congr s hcontainer hparent, h]
  exact successor_of_fresh hx hbefore

/-- From one of the objects in a container on, the others after it are met and nothing else. -/
theorem Tidy.cursor_eq (ht : s.Tidy) {c : Value} (hc : c.isText) {n : ℕ} {before after : List Value}
    (h : s.children c = before ++ after) (hn : after.length < n) :
    s.cursor n (after.headD .none) = (after, .ok ()) := by
  induction after generalizing n before with
  | nil =>
    obtain ⟨m, rfl⟩ := Nat.exists_eq_succ_of_ne_zero (Nat.ne_of_gt hn)
    rfl
  | cons x after ih =>
    obtain ⟨m, rfl⟩ := Nat.exists_eq_succ_of_ne_zero (Nat.ne_of_gt (Nat.zero_lt_of_lt hn))
    have hx := (ht.of_mem_children hc (x := x) (by simp [h])).1
    have happend : s.children c = (before ++ [x]) ++ after := by
      rw [h, List.append_assoc, List.singleton_append]
    have hrest := ih (n := m) happend (by simpa using hn)
    rw [List.headD_cons, cursor, if_neg (by simp [Value.isNone_eq_false_of_isText hx]),
      ht.next_eq hc h]
    simp only [hrest]

theorem Tidy.walk_eq (ht : s.Tidy) {c : Value} (hc : c.isText) :
    s.walk c = (s.children c, .ok ()) := by
  have happend : s.children c = [] ++ s.children c := rfl
  refine ht.cursor_eq hc happend ?_
  rw [children, List.length_map]
  exact Nat.lt_succ_of_le (List.length_filter_le _ _)

/-- The objects in a container, by their names. -/
theorem Tidy.sum_children (ht : s.Tidy) (hs : s.Placed) {c : Value} {n : String}
    (hc : c.string? = some n) (f : String → ℤ) :
    ((s.children c).map fun x ↦ f (x.string?.getD "")).sum =
      ∑ x ∈ s.names.toFinset.filter (s.links · = some n), f x := by
  have hct : c.isText := Value.isText_iff.2 ⟨n, hc⟩
  let ns := (s.children c).map fun x ↦ x.string?.getD ""
  have hname {x : Value} (hx : x ∈ s.children c) : x.string? = some (x.string?.getD "") := by
    obtain ⟨a, ha⟩ := Value.isText_iff.1 (ht.of_mem_children hct hx).1
    rw [ha, Option.getD_some]
  have hnodup : ns.Nodup := by
    refine List.pairwise_map.2 ((ht.children_pairwise c).imp_of_mem fun {x y} hx hy hne he ↦ hne ?_)
    rw [Value.same_eq_of_isText x (ht.of_mem_children hct hy).1, hname hx,
      hname hy, he, beq_self_eq_true]
  have hset : ns.toFinset = s.names.toFinset.filter (s.links · = some n) := by
    ext y
    rw [List.mem_toFinset, Finset.mem_filter, List.mem_toFinset]
    constructor
    · intro hy
      obtain ⟨x, hx, rfl⟩ := List.mem_map.1 hy
      obtain ⟨hxt, hxd, hparent⟩ := ht.of_mem_children hct hx
      have hfind := s.find?_of_string? (hname hx)
      refine ⟨s.mem_names_of_isDefined ?_, ?_⟩
      · rwa [Store.isDefined, ← hfind]
      · rw [links, ← s.parent_congr hfind, hparent, hc]
    · rintro ⟨-, hy⟩
      have hd := s.isDefined_of_links (x := y) (by simp [hy])
      have hin : Value.same (s.parent (.text y)) c := by
        rw [Value.same_eq_of_isText _ hct, hc, beq_iff_eq]
        exact hy
      obtain ⟨x, hx, hal⟩ :=
        List.any_eq_true.1 ((ht.same_parent_iff hs rfl hd (.of_isText hct)).1 hin)
      rw [Value.alike_eq_of_isText _ (ht.of_mem_children hct hx).1, hname hx, beq_iff_eq] at hal
      exact List.mem_map.2 ⟨x, hx, (Option.some.inj hal).symm⟩
  rw [← hset, List.sum_toFinset _ hnodup, List.map_map]
  rfl

theorem sizeOf_of_string? (s : Store) {x : Value} {n : String} (h : x.string? = some n) :
    s.sizeOf x = s.sizeOf (.text n) := by
  rw [sizeOf, sizeOf, property, property, s.find?_of_string? h]

theorem sum_contents (ht : s.Tidy) (hn : s.Nested) {c : Value} {n : String}
    (hc : c.string? = some n) :
    ((s.children c).map fun x ↦ s.sizeOf x + s.contents (x.string?.getD "")).sum =
    s.contents n := by
  have hct : c.isText := Value.isText_iff.2 ⟨n, hc⟩
  have hlinks : ∀ a, (s.links a).isSome → a ∈ s.names.toFinset :=
    fun a ha ↦ List.mem_toFinset.2 (s.mem_names_of_isDefined (s.isDefined_of_links ha))
  rw [contents, hn.acyclic.sum_below hlinks]
  refine .trans ?_ (ht.sum_children hn.placed hc fun y ↦ s.sizeOf (.text y) + s.contents y)
  refine congrArg List.sum (List.map_congr_left fun x hx ↦ ?_)
  obtain ⟨a, ha⟩ := Value.isText_iff.1 (ht.of_mem_children hct hx).1
  rw [ha, Option.getD_some, s.sizeOf_of_string? ha]

theorem Measured.foldlM_eq (hs : s.Measured) {d : ℕ} {xs : List Value} {f : Value → ℤ}
    (hf : ∀ x ∈ xs, s.weighDown d x = .ok (.int (f x))) (a : ℤ) :
    xs.foldlM (fun total x ↦ do
        let inside ← s.weighDown d x
        Value.add total (← (s.property x (.text "size") (.int 0)).add inside)) (Value.int a) =
      Except.ok (Value.int (a + (xs.map fun x ↦ s.sizeOf x + f x).sum)) := by
  induction xs generalizing a with
  | nil =>
    rw [List.map_nil, List.sum_nil, add_zero]
    rfl
  | cons x xs ih =>
    have hx := hf x (by simp)
    have hadd : (s.property x (.text "size") (.int 0)).add (.int (f x)) =
        .ok (.int (s.sizeOf x + f x)) :=
      Value.add_of_int? (hs.int?_property x) rfl
    have hsum : (Value.int a).add (.int (s.sizeOf x + f x)) = .ok (.int (a + (s.sizeOf x + f x))) :=
      rfl
    have hrest := ih (fun y hy ↦ hf y (by simp [hy])) (a + (s.sizeOf x + f x))
    rw [List.map_cons, List.sum_cons, ← add_assoc, ← hrest]
    simp only [List.foldlM_cons, hx, hadd, hsum, bind, Except.bind]

theorem Measured.weighDown_eq (hs : s.Measured) (ht : s.Tidy) (hn : s.Nested) {d : ℕ}
    {c : Value} {n : String} (hc : c.string? = some n)
    (hd : ∀ k y, s.links.step^[k] (some y) = some n → k < d) :
    s.weighDown d c = .ok (.int (s.contents n)) := by
  induction d generalizing c n with
  | zero => exact absurd (hd 0 n rfl) (Nat.lt_irrefl 0)
  | succ d ih =>
    have hct : c.isText := Value.isText_iff.2 ⟨n, hc⟩
    have hinside : ∀ x ∈ s.children c, s.weighDown d x =
        .ok (.int (s.contents (x.string?.getD ""))) := by
      intro x hx
      obtain ⟨hxt, -, hparent⟩ := ht.of_mem_children hct hx
      obtain ⟨a, ha⟩ := Value.isText_iff.1 hxt
      rw [ha, Option.getD_some]
      refine ih ha fun k y hk ↦ ?_
      have hlink : s.links a = some n := by
        rw [links, ← s.parent_congr (s.find?_of_string? ha), hparent, hc]
      have hlt := hd (k + 1) y (by rw [Function.iterate_succ_apply', hk, Links.step_some, hlink])
      omega
    have hfold := hs.foldlM_eq hinside 0
    rw [sum_contents ht hn hc, zero_add] at hfold
    rw [weighDown, ht.walk_eq hct]
    dsimp only
    rw [hfold]
    rfl

/-- A container weighs what all objects inside it weigh, each of them once. -/
theorem Reachable.weight_of_measured (hr : Reachable s) (hs : s.Measured) {c : Value} {n : String}
    (hc : c.string? = some n) : s.weight c = .ok (.int (s.contents n)) := by
  refine hs.weighDown_eq hr.tidy hr.nested hc fun k y hk ↦ ?_
  by_contra hlt
  have hle := s.length_names_le
  have hsome := Links.iterate_isSome (m := s.names.length + 1) (by rw [hk]; rfl) (by omega)
  rw [hr.nested.acyclic.iterate_eq_none fun a h ↦ s.mem_names_of_isDefined (s.isDefined_of_links h)]
    at hsome
  simp at hsome

theorem Reachable.weight_eq (hr : Reachable s) (hs : s.Sized) {c : Value} {n : String}
    (hc : c.string? = some n) : s.weight c = .ok (.int (s.contents n)) :=
  hr.weight_of_measured hs.measured hc

structure SameSizes (s t : Store) : Prop where
  names : t.names = s.names
  sizeOf : ∀ y, t.sizeOf (.text y) = s.sizeOf (.text y)
  sizes : ∀ e ∈ t.records, ∃ d ∈ s.records, e.2.size = d.2.size

theorem SameSizes.sized (h : SameSizes s t) (hs : s.Sized) : t.Sized := by
  intro e he
  obtain ⟨d, hd, hsize⟩ := h.sizes e he
  rw [hsize]
  exact hs d hd

theorem SameSizes.measured (h : SameSizes s t) (hs : s.Measured) : t.Measured := by
  intro e he
  obtain ⟨d, hd, hsize⟩ := h.sizes e he
  rw [hsize]
  exact hs d hd

theorem sameSizes_update {id : Value} (hid : id.isText) {f : Record → Record}
    (hf : ∀ r, (f r).size = r.size) : SameSizes s (s.update id f) where
  names := congrArg (List.filterMap Value.string?) (ids_update s id f)
  sizeOf y := by
    have hkey : Field.ofKey? (.text "size") = some .size := by decide
    have hy : (Value.text y).isText := rfl
    simp only [Store.sizeOf, property, find?_eq_lookup? _ hy, lookup?_update hid hy]
    by_cases he : id.string? = (Value.text y).string?
    · rw [if_pos he]
      cases s.lookup? (.text y) with
      | none => rfl
      | some r =>
        have hfield : (f r).field .size = r.field .size := hf r
        simp only [Option.map_some, hkey, hfield]
    · rw [if_neg he]
  sizes := by
    intro e he
    obtain ⟨d, hd, rfl⟩ := List.mem_map.1 he
    refine ⟨d, hd, ?_⟩
    split
    · exact hf d.2
    · rfl

theorem sameSizes_of_move {x p : Value} (hx : x.isText) (h : move x p s = .ok () t) :
    SameSizes s t := by
  rcases of_move_ok h with rfl | ⟨r, -, -, rfl⟩
  · exact ⟨rfl, fun _ ↦ rfl, fun e he ↦ ⟨e, he, rfl⟩⟩
  · have hu : SameSizes s (s.update x fun r ↦ { r with parent := p }) :=
      sameSizes_update hx fun _ ↦ rfl
    exact ⟨hu.names, hu.sizeOf, hu.sizes⟩

theorem SameSizes.contents_eq (h : SameSizes s t) (c : String) :
    t.contents c = ∑ y ∈ t.links.below s.names.toFinset c, s.sizeOf (.text y) := by
  rw [contents, h.names]
  exact Finset.sum_congr rfl fun y _ ↦ h.sizeOf y

theorem contents_setFlag {id : Value} (hid : id.isText) (flag : Value) (c : String) :
    (s.update id (·.setFlag flag)).contents c = s.contents c := by
  have hsizes : SameSizes s (s.update id (·.setFlag flag)) := sameSizes_update hid fun _ ↦ rfl
  have hkeeps : Keeps s (s.update id (·.setFlag flag)) := keeps_update hid fun _ ↦ rfl
  rw [hsizes.contents_eq, hkeeps.links_eq, contents]

theorem held_eq_false_of_isNone {p : Value} (hp : p.isNone) (c : Value) : s.held p c = false := by
  rw [held, ancestors, parent_of_isNone s hp, chain]
  rfl

/-- The object, or one that is held by it, is met from the place. -/
theorem Nested.leads_iff (hs : s.Nested) {p c : Value} {n : String} (hp : p.IsPlace)
    (hc : c.string? = some n) :
    (∃ k, s.links.step^[k] p.string? = some n) ↔ Value.same p c ∨ s.held p c := by
  have hct : c.isText := Value.isText_iff.2 ⟨n, hc⟩
  rcases hp with hp | hp
  · have hnone := Value.string?_eq_none_of_isNone hp
    rw [Value.same_eq_of_isText p hct, held_eq_false_of_isNone hp, hnone, hc]
    simp
  · obtain ⟨b, hb⟩ := Value.isText_iff.1 hp
    rw [hb, hs.held_iff hp hct]
    exact hs.placed.reaches_iff hb hc

section

variable (hr : Reachable s) {x p c : Value} {a n : String}
  (hx : x.string? = some a) (hp : p.IsPlace)
  (hd : s.isDefined x) (h : Store.move x p s = .ok () t)

include hr hx hp hd h

theorem Reachable.place_avoids (k : ℕ) : s.links.step^[k] p.string? ≠ some a := by
  intro hk
  have hxt : x.isText := Value.isText_iff.2 ⟨a, hx⟩
  obtain ⟨-, hpl⟩ := hr.move hd hp h
  have hpt : p.isText := by
    refine hp.isText_iff_ne.2 (Bool.eq_false_iff.2 fun hnone ↦ ?_)
    rw [Value.string?_eq_none_of_isNone hnone] at hk
    simp at hk
  have hmet := (hr.nested.leads_iff hp hx).1 ⟨k, hk⟩
  rw [hr.nested.held_iff hpt hxt] at hmet
  exact (hr.nested.obstacle?_eq_none_iff hxt hpt).1 hpl.free hmet

/-- An object that is moved takes its own size, and those of everything in it, away from all that
held it, and adds them to the place where it comes and to all that hold this. -/
theorem Reachable.contents_after_move (hc : c.string? = some n) :
    t.contents n = s.contents n - (if s.held x c then s.sizeOf x + s.contents a else 0) +
      if Value.same p c ∨ s.held p c then s.sizeOf x + s.contents a else 0 := by
  have hxt : x.isText := Value.isText_iff.2 ⟨a, hx⟩
  have hct : c.isText := Value.isText_iff.2 ⟨n, hc⟩
  have hplaces := (hr.move hd hp h).2
  have hmem : a ∈ s.names.toFinset := by
    rw [isDefined, s.find?_of_string? hx] at hd
    exact List.mem_toFinset.2 (s.mem_names_of_isDefined hd)
  have hheld : s.held x c ↔ a ∈ s.links.below s.names.toFinset n := by
    rw [hr.nested.held_iff hxt hct, hr.nested.placed.inside_iff (.of_isText hxt) hct,
      hx, hc, Links.mem_below]
    exact (and_iff_right hmem).symm
  rw [(sameSizes_of_move hxt h).contents_eq, hplaces.links_eq hx,
    hr.nested.acyclic.sum_below_update (hr.place_avoids hx hp hd h) hmem,
    s.sizeOf_of_string? hx, contents,
    contents]
  simp only [hheld, hr.nested.leads_iff hp hc]

theorem Reachable.contents_inside_moved (hn : s.links.Reaches n a) :
    t.contents n = s.contents n := by
  have hxt : x.isText := Value.isText_iff.2 ⟨a, hx⟩
  rw [(sameSizes_of_move hxt h).contents_eq, (hr.move hd hp h).2.links_eq hx,
    hr.nested.acyclic.below_update_of_reaches (hr.place_avoids hx hp hd h) hn, contents]

end

/-- What is moved into a container adds to it all its own contents, unless it was inside already. -/
theorem Reachable.contents_of_move (hr : Reachable s) {x p : Value} {a b : String}
    (hx : x.string? = some a) (hp : p.string? = some b) (hd : s.isDefined x)
    (h : Store.move x p s = .ok () t) :
    t.contents b = s.contents b + if s.held x p then 0 else s.sizeOf x + s.contents a := by
  have hpt : p.isText := Value.isText_iff.2 ⟨b, hp⟩
  have hself : Value.same p p := by rw [Value.same_eq_of_isText p hpt, beq_self_eq_true]
  have hmet : Value.same p p ∨ s.held p p := .inl hself
  rw [hr.contents_after_move hx (.of_isText hpt) hd h hp, if_pos hmet]
  cases s.held x p <;> simp

end Store

end Fable
