import Fable.Proofs.Marks
import Fable.Proofs.Sights

namespace Fable

namespace Store

variable {s t : Store} {x y c winner : Value}

/-- The objects that the description of a place comes to. Of those that are nowhere it is only the
first, since none comes after an object without a container. -/
def met (s : Store) (place : Value) : List Value :=
  if place.isNone then (s.children place).take 1 else s.children place

def prospect (s : Store) (winner here : Value) : List Value :=
  [s.nameOf here, .text "\n"] ++
    (s.longLine here ++ (s.listing winner (s.met here)).flatMap (·.written s))

/-- The object is directly in one that is told of and that shows what is in it. -/
def Revealed (s : Store) (winner here x : Value) : Prop :=
  ∃ y ∈ s.met here, s.isShown winner y ∧ s.showsInside y ∧ Value.same (s.parent x) y

instance (s : Store) (winner here x : Value) : Decidable (s.Revealed winner here x) :=
  inferInstanceAs (Decidable (∃ y ∈ s.met here, s.isShown winner y ∧ s.showsInside y ∧
    Value.same (s.parent x) y))

/-- The place is nowhere, and the object is met there instead of one that there is something to tell
of. -/
def InFront (s : Store) (winner here x : Value) : Prop :=
  here.isNone ∧ ∃ z y ys, s.children here = z :: y :: ys ∧ Value.same z x ∧ s.linesOf winner y ≠ []

structure Without (s : Store) (x : Value) (t : Store) : Prop where
  nameOf : ∀ y, t.nameOf y = s.nameOf y
  hasFlag : ∀ y flag, t.hasFlag y flag = s.hasFlag y flag
  property : ∀ y key default, t.property y key default = s.property y key default
  children : ∀ c, t.children c = (s.children c).filter (·.string? != x.string?) ++
    if c.isNone then [x] else []

theorem Tidy.walk_eq_met (ht : s.Tidy) (hp : s.Placed) (hc : c.IsPlace) :
    s.walk c = (s.met c, .ok ()) := by
  rcases hc with hc | hc
  · have hlength : (s.children c).length ≤ s.arrivals.length := by
      rw [children, List.length_map]
      exact List.length_filter_le _ _
    rw [met, if_pos hc, walk, first]
    cases h : s.children c with
    | nil => rfl
    | cons x xs =>
      obtain ⟨hx, -, hparent⟩ := ht.of_mem_children_of_isPlace (.inl hc) (x := x) (by simp [h])
      rw [Value.string?_eq_none_of_isNone hc] at hparent
      have hnext : s.next x = .ok .none := by
        rw [next, if_pos ((hp.parent (.of_isText hx)).isNone_of_string? hparent)]
      rw [h, List.length_cons] at hlength
      obtain ⟨n, hn⟩ := Nat.exists_eq_add_of_le' (Nat.one_le_of_lt (Nat.lt_of_succ_le hlength))
      rw [hn, List.headD_cons, cursor, if_neg (by simp [Value.isNone_eq_false_of_isText hx]), hnext]
      rfl
  · rw [met, if_neg (by simp [Value.isNone_eq_false_of_isText hc]), ht.walk_eq hc]

theorem Tidy.isText_of_mem_met (ht : s.Tidy) (hc : c.IsPlace) (hx : x ∈ s.met c) : x.isText := by
  rw [met] at hx
  split at hx
  · exact (ht.of_mem_children_of_isPlace hc (List.mem_of_mem_take hx)).1
  · exact (ht.of_mem_children_of_isPlace hc hx).1

theorem Fixes.nameOf (h : Fixes Record.name s t) (y : Value) : t.nameOf y = s.nameOf y := by
  have hy := h y
  unfold Store.nameOf
  cases hs : s.find? y <;> cases ht : t.find? y <;> simp_all

theorem property_of_move {id into : Value} (h : move id into s = .ok () t) (y key default : Value) :
    t.property y key default = s.property y key default := by
  cases hkey : Field.ofKey? key with
  | none => exact (fixes_of_move (p := (·.properties)) (fun _ ↦ rfl) h).property y hkey default
  | some f =>
    have hy := fixes_of_move (p := (·.field f)) (fun _ ↦ by cases f <;> rfl) h y
    unfold Store.property
    cases hs : s.find? y <;> cases ht : t.find? y <;> simp_all

theorem Reachable.exists_remove (hr : Reachable s) (hd : s.isDefined x) :
    ∃ t, remove x s = .ok () t ∧ s.Without x t := by
  have hx := hr.isText_of_isDefined hd
  obtain ⟨r, hfind⟩ := Option.isSome_iff_exists.1 hd
  have hmove : remove x s = .ok () (s.transfer x r.parent .none) := by
    have hfree : s.obstacle? x .none = none := rfl
    rw [remove, Store.move, hfind, hfree]
    simp [Value.hashable_of_isText hx]
  have harrivals : (s.transfer x r.parent .none).arrivals =
      (s.arrivals.filter fun a ↦ a.object.string? != x.string?) ++ [⟨x, .none⟩] := by
    rw [(places_transfer hx Value.isPlace_none rfl hfind).arrivals,
      hr.tidy.arrivals_leave hr.nested.placed hx]
  refine ⟨_, hmove, (fixes_of_move (fun _ ↦ rfl) hmove).nameOf,
    fun y flag ↦ ?_, property_of_move hmove, fun c ↦ ?_⟩
  · exact (fixes_flags_of_move hmove).hasFlag y
  · rw [children, children, harrivals, List.filter_append, List.map_append,
    List.filter_comm, List.filter_map]
    congr 1
    rw [List.filter_singleton, Value.alike_none_left]
    cases c.isNone <;> rfl

theorem Legible.of_move {id into : Value} (hs : s.Legible) (h : move id into s = .ok () t) :
    t.Legible := by
  rcases of_move_ok h with rfl | ⟨r, -, -, rfl⟩
  · exact hs
  · intro e he
    obtain ⟨e', he', rfl⟩ := List.mem_map.1 he
    have hlegible := hs e' he'
    split
    · exact ⟨hlegible.ldesc, hlegible.fdesc⟩
    · exact hlegible

theorem mem_linesOf_inside_iff : .inside x ∈ s.linesOf winner y ↔
    s.isShown winner y ∧ s.showsInside y ∧ x ∈ s.children y := by
  rw [linesOf, insideLines]
  cases s.isShown winner y <;> cases s.hasFlag y Play.undescribedFlag <;> cases s.showsInside y <;>
    cases s.children y <;> simp

theorem linesOf_of_invisible (hx : s.hasFlag x Play.invisibleFlag) : s.linesOf winner x = [] := by
  rw [linesOf, isShown, hx, Bool.not_true, Bool.and_false, if_neg Bool.false_ne_true]

namespace Without

variable {z : Value} {xs zs : List Value} (h : s.Without x t)

include h

theorem isShown (winner y : Value) : t.isShown winner y = s.isShown winner y := by
  rw [Store.isShown, Store.isShown, h.hasFlag]

theorem showsInside (y : Value) : t.showsInside y = s.showsInside y := by
  rw [Store.showsInside, Store.showsInside, h.hasFlag, h.hasFlag]

theorem longLine (room : Value) : t.longLine room = s.longLine room := by
  rw [Store.longLine, Store.longLine, h.property]

theorem written (l : Line) : l.written t = l.written s := by
  cases l <;> simp only [Line.written, h.nameOf, h.hasFlag, h.property]

theorem children_of_isText (hy : y.isText) :
    t.children y = (s.children y).filter (·.string? != x.string?) := by
  rw [h.children, Value.isNone_eq_false_of_isText hy, if_neg Bool.false_ne_true, List.append_nil]

theorem linesOf_sublist (hy : y.isText) : (t.linesOf winner y).Sublist (s.linesOf winner y) := by
  have hinside : (t.insideLines y).Sublist (s.insideLines y) := by
    have hsub : (t.children y).Sublist (s.children y) :=
      h.children_of_isText hy ▸ List.filter_sublist
    rw [insideLines, insideLines, h.showsInside]
    cases s.showsInside y with
    | false => exact .slnil
    | true =>
      cases ht : t.children y with
      | nil => exact List.nil_sublist _
      | cons z zs =>
        rw [ht] at hsub
        cases hs : s.children y with
        | nil => rw [hs] at hsub; cases hsub
        | cons => exact (hs ▸ hsub.map _).cons_cons _
  rw [linesOf, linesOf, h.isShown, h.hasFlag]
  split
  · exact hinside.append_left _
  · exact .slnil

theorem listing_sublist (hxs : ∀ y ∈ xs, y.isText) :
    (t.listing winner xs).Sublist (s.listing winner xs) :=
  .flatMap_right xs fun y hy ↦ h.linesOf_sublist (hxs y hy)

theorem children_eq (ht : s.Tidy) (hy : y.isText) (hno : ¬ Value.same (s.parent x) y) :
    t.children y = s.children y := by
  rw [h.children_of_isText hy, List.filter_eq_self]
  intro z hz
  obtain ⟨hzt, -, hparent⟩ := ht.of_mem_children hy hz
  refine bne_iff_ne.2 fun he ↦ hno ?_
  rw [Value.same_eq_of_isText _ hy, ← parent_congr_of_isText hzt he, hparent, beq_self_eq_true]

theorem linesOf_eq (ht : s.Tidy) (hy : y.isText)
    (hno : ¬ (s.isShown winner y ∧ s.showsInside y ∧ Value.same (s.parent x) y)) :
    t.linesOf winner y = s.linesOf winner y := by
  rw [linesOf, linesOf, h.isShown, h.hasFlag]
  split
  · next hshown =>
    rw [insideLines, insideLines, h.showsInside]
    cases hopen : s.showsInside y with
    | false => rfl
    | true => rw [h.children_eq ht hy fun hsame ↦ hno ⟨hshown, hopen, hsame⟩]
  · rfl

/-- Exactly where the object is in one that is told of there is a line less. -/
theorem listing_eq_iff (ht : s.Tidy) (hp : s.Placed) (hx : x.isText) (hd : s.isDefined x)
    (hxs : ∀ y ∈ xs, y.isText) : t.listing winner xs = s.listing winner xs ↔
      ∀ y ∈ xs, ¬ (s.isShown winner y ∧ s.showsInside y ∧ Value.same (s.parent x) y) := by
  constructor
  · rintro heq y hy ⟨hshown, hopen, hsame⟩
    obtain ⟨z, hz, halike⟩ :=
      List.any_eq_true.1 ((ht.same_parent_iff hp hx hd (.of_isText (hxs y hy))).1 hsame)
    rw [Value.alike_eq_of_isText_left hx, beq_iff_eq] at halike
    have hline : Line.inside z ∈ s.listing winner xs :=
      List.mem_flatMap.2 ⟨y, hy, mem_linesOf_inside_iff.2 ⟨hshown, hopen, hz⟩⟩
    rw [← heq] at hline
    -- No object tells of the one that has been taken out.
    obtain ⟨y', hy', hline⟩ := List.mem_flatMap.1 hline
    obtain ⟨-, -, hz'⟩ := mem_linesOf_inside_iff.1 hline
    rw [h.children_of_isText (hxs y' hy')] at hz'
    exact bne_iff_ne.1 (List.mem_filter.1 hz').2 halike.symm
  · exact fun hno ↦ List.flatMap_congr fun y hy ↦ h.linesOf_eq ht (hxs y hy) (hno y hy)

theorem linesOf_self (hx : x.isText) (hflag : s.hasFlag x Play.invisibleFlag)
    (hy : y.string? = x.string?) :
    t.linesOf winner y = [] := by
  refine linesOf_of_invisible ?_
  rw [h.hasFlag, ← hasFlag_congr hx hy.symm, hflag]

theorem listing_filter (hx : x.isText) (hflag : s.hasFlag x Play.invisibleFlag) (xs : List Value) :
    t.listing winner (xs.filter (·.string? != x.string?)) = t.listing winner xs := by
  induction xs with
  | nil => rfl
  | cons y ys ih =>
    by_cases hy : y.string? = x.string?
    · rw [List.filter_cons_of_neg (by simp [hy]), ih, listing, listing, List.flatMap_cons,
        h.linesOf_self hx hflag hy, List.nil_append]
    · rw [List.filter_cons_of_pos (by simp [hy]), listing, List.flatMap_cons,
      listing, List.flatMap_cons]
      exact congrArg _ ih

theorem met_of_first (ht : s.Tidy) (hx : x.isText) (hc : c.isNone) (hz : z.string? = x.string?)
    (hchildren : s.children c = z :: zs) : t.met c = (zs ++ [x]).take 1 := by
  have hrest : zs.filter (·.string? != x.string?) = zs := by
    have hpair := ht.children_pairwise c
    rw [hchildren, List.pairwise_cons] at hpair
    refine List.filter_eq_self.2 fun y hy ↦ bne_iff_ne.2 fun he ↦ hpair.1 y hy ?_
    rw [Value.same_eq_of_isText z (by rwa [Value.isText, he]), hz, he, beq_self_eq_true]
  rw [met, if_pos hc, h.children, if_pos hc, hchildren,
    List.filter_cons_of_neg (by simp [hz]), hrest]

/-- Nothing else is met once the object is out of the way, unless it was in front of that. -/
theorem listing_met (ht : s.Tidy) (hx : x.isText) (hflag : s.hasFlag x Play.invisibleFlag)
    (hc : c.IsPlace) (hfront : ¬ s.InFront winner c x) :
    t.listing winner (t.met c) = t.listing winner (s.met c) := by
  cases hnone : c.isNone with
  | false =>
    rw [met, met, h.children, hnone, if_neg Bool.false_ne_true, if_neg Bool.false_ne_true,
      if_neg Bool.false_ne_true, List.append_nil]
    exact h.listing_filter hx hflag _
  | true =>
    have hself {y : Value} (hy : y.string? = x.string?) : t.listing winner [y] = [] := by
      rw [listing, List.flatMap_singleton, h.linesOf_self hx hflag hy]
    cases hchildren : s.children c with
    | nil =>
      rw [met, met, h.children, hnone, if_pos rfl, if_pos rfl, if_pos rfl, hchildren]
      exact hself rfl
    | cons z zs =>
      by_cases hz : z.string? = x.string?
      · rw [h.met_of_first ht hx hnone hz hchildren, met, if_pos hnone, hchildren]
        refine Eq.trans ?_ (hself hz).symm
        cases zs with
        | nil => exact hself rfl
        | cons y ys =>
          have hy := (ht.of_mem_children_of_isPlace hc (x := y) (by simp [hchildren])).1
          have hlines : s.linesOf winner y = [] := by
            by_contra hlines
            refine hfront ⟨hnone, z, y, ys, hchildren, ?_, hlines⟩
            rw [Value.same_eq_of_isText z hx, hz, beq_self_eq_true]
          have hsub : (t.linesOf winner y).Sublist (s.linesOf winner y) := h.linesOf_sublist hy
          rw [hlines, List.sublist_nil] at hsub
          exact (List.flatMap_singleton ..).trans hsub
      · rw [met, met, h.children, hnone, if_pos rfl, if_pos rfl, if_pos rfl, hchildren,
          List.filter_cons_of_pos (by simp [hz])]
        rfl

theorem listing_of_inFront (ht : s.Tidy) (hx : x.isText) (hflag : s.hasFlag x Play.invisibleFlag)
    (hfront : s.InFront winner c x) :
    s.listing winner (s.met c) = [] ∧ t.listing winner (t.met c) ≠ [] := by
  obtain ⟨hc, z, y, ys, hchildren, hsame, hlines⟩ := hfront
  rw [Value.same_eq_of_isText z hx, beq_iff_eq] at hsame
  have hmem {w : Value} (hw : w ∈ s.children c) := ht.of_mem_children_of_isPlace (.inl hc) hw
  obtain ⟨hzt, -, hzc⟩ := hmem (w := z) (by simp [hchildren])
  obtain ⟨hyt, -, -⟩ := hmem (w := y) (by simp [hchildren])
  refine ⟨?_, ?_⟩
  · rw [met, if_pos hc, hchildren]
    refine (List.flatMap_singleton ..).trans (linesOf_of_invisible ?_)
    rwa [hasFlag_congr hzt hsame]
  · have hapart : ¬ Value.same (s.parent x) y := by
      obtain ⟨n, hn⟩ := Value.isText_iff.1 hyt
      rw [Value.same_eq_of_isText _ hyt, ← parent_congr_of_isText hzt hsame, hzc,
        Value.string?_eq_none_of_isNone hc, hn]
      exact nofun
    rw [h.met_of_first ht hx hc hsame hchildren]
    refine ne_of_eq_of_ne (List.flatMap_singleton ..) ?_
    rwa [h.linesOf_eq ht hyt fun hin ↦ hapart hin.2.2]

/-- Taking out an object that is invisible shows exactly where it is in one that is told of, or in
front. -/
theorem listing_met_eq_iff (hr : Reachable s) (hflag : s.hasFlag x Play.invisibleFlag)
    (hc : c.IsPlace) :
    t.listing winner (t.met c) = s.listing winner (s.met c) ↔
      ¬ (s.Revealed winner c x ∨ s.InFront winner c x) := by
  have hd := isDefined_of_hasFlag _ hflag
  have hx := hr.isText_of_isDefined hd
  have hmet : ∀ y ∈ s.met c, y.isText := fun y hy ↦ hr.tidy.isText_of_mem_met hc hy
  by_cases hfront : s.InFront winner c x
  · obtain ⟨hempty, hne⟩ := h.listing_of_inFront hr.tidy hx hflag hfront
    rw [hempty]
    exact iff_of_false hne (not_not.2 (.inr hfront))
  · rw [h.listing_met hr.tidy hx hflag hc hfront,
      h.listing_eq_iff hr.tidy hr.nested.placed hx hd hmet, or_iff_left hfront, Revealed]
    exact ⟨fun hno ⟨y, hy, hin⟩ ↦ hno y hy hin, fun hno y hy hin ↦ hno ⟨y, hy, hin⟩⟩

/-- Taking out an object makes no line different, but some may be missing or added. -/
theorem listing_met_sublist (hr : Reachable s) (hflag : s.hasFlag x Play.invisibleFlag)
    (hc : c.IsPlace) :
    (t.listing winner (t.met c)).Sublist (s.listing winner (s.met c)) ∨
      (s.listing winner (s.met c)).Sublist (t.listing winner (t.met c)) := by
  have hx := hr.isText_of_isDefined (isDefined_of_hasFlag _ hflag)
  by_cases hfront : s.InFront winner c x
  · rw [(h.listing_of_inFront hr.tidy hx hflag hfront).1]
    exact .inr (List.nil_sublist _)
  · rw [h.listing_met hr.tidy hx hflag hc hfront]
    exact .inl (h.listing_sublist fun y hy ↦ hr.tidy.isText_of_mem_met hc hy)

end Without

end Store

end Fable
