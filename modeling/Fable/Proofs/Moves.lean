import Fable.Proofs.Weight

namespace Fable

/-- From where a name is reached does not depend on the link at the name itself. -/
theorem Links.Acyclic.reaches_update_iff {l : Links} {a b : String}
    {p : Option String} (hl : l.Acyclic) (hp : Links.Acyclic (Function.update l b p)) :
    Links.Reaches (Function.update l b p) a b ↔ l.Reaches a b := by
  constructor
  · rintro ⟨n, hn⟩
    have hback := hp.iterate_update (l b) hn (Nat.le_refl n)
    rw [Function.update_idem, Function.update_eq_self] at hback
    exact ⟨n, hback.trans hn⟩
  · rintro ⟨n, hn⟩
    exact ⟨n, (hl.iterate_update p hn (Nat.le_refl n)).trans hn⟩

/-- At most one place is like a value. -/
theorem Value.IsPlace.string?_of_alike {p c : Value} (hp : p.IsPlace) (h : Value.alike p c) :
    p.string? = c.string? := by
  rcases hp with hp | hp
  · have hc : c.isNone := by
      cases p <;> simp only [isNone, Bool.false_eq_true] at hp
      rwa [alike_none_left] at h
    rw [string?_eq_none_of_isNone hp, string?_eq_none_of_isNone hc]
  · rwa [alike_eq_of_isText_left hp, beq_iff_eq] at h

namespace Table

variable {α : Type} (t : Table α)

theorem modify_modify (key : Value) (f g : α → α) :
    (t.modify key f).modify key g = t.modify key fun a ↦ g (f a) := by
  refine (List.map_map ..).trans (List.map_congr_left fun e _ ↦ ?_)
  by_cases he : Value.alike e.1 key <;> simp [he]

theorem modify_comm {key key' : Value} (hkey : key.isText) (hkey' : key'.isText)
    (hne : key.string? ≠ key'.string?) (f g : α → α) :
    (t.modify key f).modify key' g = (t.modify key' g).modify key f := by
  refine (List.map_map ..).trans ((List.map_congr_left fun e _ ↦ ?_).trans (List.map_map ..).symm)
  have hboth : ¬ (Value.alike e.1 key ∧ Value.alike e.1 key') := by
    rw [Value.alike_eq_of_isText _ hkey, Value.alike_eq_of_isText _ hkey', beq_iff_eq, beq_iff_eq]
    exact fun he ↦ hne (he.1.symm.trans he.2)
  by_cases he : Value.alike e.1 key <;> by_cases he' : Value.alike e.1 key'
  · exact absurd ⟨he, he'⟩ hboth
  all_goals simp [he, he']

end Table

namespace Store

variable {s t u v w : Store} {x y p q : Value}

/-- The record of the object names the place, and the object is the last that has arrived. -/
structure Moved (s : Store) (x p : Value) (t : Store) : Prop where
  records : t.records = s.records.modify x fun r ↦ { r with parent := p }
  arrivals : t.arrivals = (s.arrivals.filter fun a ↦ a.object.string? != x.string?) ++ [⟨x, p⟩]

theorem Reachable.moved (hr : Reachable s) (hd : s.isDefined x) (hp : p.IsPlace)
    (h : Store.move x p s = .ok () t) : Moved s x p t := by
  obtain ⟨-, hpl⟩ := hr.move hd hp h
  refine ⟨?_, by rw [hpl.arrivals, hr.tidy.arrivals_leave hr.nested.placed hpl.isText]⟩
  obtain ⟨r, hfind⟩ := Option.isSome_iff_exists.1 hd
  rw [eq_transfer_of_move hfind h]
  rfl

/-- An object may be put into a place if no way leads from there to the object. -/
theorem Nested.obstacle?_eq_none_iff_reaches (hs : s.Nested) {a : String} (hx : x.string? = some a)
    (hp : p.IsPlace) :
    s.obstacle? x p = none ↔ ∀ b, p.string? = some b → ¬ s.links.Reaches b a := by
  rcases hp with hp | hp
  · simp [obstacle?_of_isNone x hp, Value.string?_eq_none_of_isNone hp]
  · obtain ⟨b, hb⟩ := Value.isText_iff.1 hp
    rw [hs.obstacle?_eq_none_iff (Value.isText_iff.2 ⟨a, hx⟩) hp, ← hs.placed.reaches_iff hb hx, hb]
    simp

theorem exists_move_iff (hd : s.isDefined x) (hx : x.isText) (hp : p.IsPlace) :
    (∃ t, move x p s = .ok () t) ↔ s.obstacle? x p = none := by
  rcases move_cases hx hp s with ⟨f, ho, he⟩ | ⟨hu, -⟩ | ⟨t, he, hpl⟩
  · simp [ho, he]
  · simp [hu] at hd
  · simp [hpl.free, he]

theorem Moved.again (ht : Moved s x p t) (hu : Moved t x q u) (hv : Moved s x q v) :
    u.records = v.records ∧ u.arrivals = v.arrivals := by
  constructor
  · rw [hu.records, ht.records, hv.records, Table.modify_modify]
  · rw [hu.arrivals, ht.arrivals, hv.arrivals, List.filter_append, List.filter_filter]
    simp

/-- Wherever an object was put before, it may go to the same places as without that. -/
theorem Reachable.obstacle?_after_move (hr : Reachable s) (hd : s.isDefined x)
    (hp : p.IsPlace) (hq : q.IsPlace) (h : Store.move x p s = .ok () t) :
    t.obstacle? x q = none ↔ s.obstacle? x q = none := by
  obtain ⟨a, ha⟩ := Value.isText_iff.1 (hr.isText_of_isDefined hd)
  obtain ⟨ht, hpl⟩ := hr.move hd hp h
  have hlinks := hpl.links_eq ha
  have hacyclic := ht.nested.acyclic
  rw [hlinks] at hacyclic
  rw [ht.nested.obstacle?_eq_none_iff_reaches ha hq,
    hr.nested.obstacle?_eq_none_iff_reaches ha hq, hlinks]
  simp only [hr.nested.acyclic.reaches_update_iff hacyclic]

/-- After an accepted move, a further move of the same object is accepted exactly if it would have
been without the first; and then it leaves the same records, and the same objects in the same order
in every container. -/
theorem last_move_wins (hr : Reachable s) (hd : s.isDefined x) (hp : p.IsPlace) (hq : q.IsPlace)
    (h : move x p s = .ok () t) :
    ((∃ u, move x q t = .ok () u) ↔ ∃ v, move x q s = .ok () v) ∧
      ∀ u v, move x q t = .ok () u → move x q s = .ok () v →
        u.records = v.records ∧ ∀ c, u.children c = v.children c := by
  have hx := hr.isText_of_isDefined hd
  obtain ⟨ht, hpl⟩ := hr.move hd hp h
  have hdt : t.isDefined x := by simp [hpl.isDefined x hx]
  constructor
  · rw [exists_move_iff hdt hx hq, exists_move_iff hd hx hq]
    exact hr.obstacle?_after_move hd hp hq h
  · intro u v hu hv
    have hsame := (hr.moved hd hp h).again (ht.moved hdt hq hu) (hr.moved hd hq hv)
    exact ⟨hsame.1, fun c ↦ by rw [children, children, hsame.2]⟩

def shelf : Store :=
  history [.define (.text "SHELF") {}, .define (.text "BOX") { parent := .text "SHELF" },
    .define (.text "COIN") { parent := .text "SHELF" },
    .define (.text "KEY") { parent := .text "SHELF" }]

theorem reachable_shelf : Reachable shelf :=
  reachable_history (by decide +kernel)

/-- The coin is put back on the shelf, from the box or from the shelf itself: it comes last
there. -/
theorem coin_back_on_shelf :
    ∃ t u v, Reachable shelf ∧ shelf.isDefined (.text "COIN") ∧
      move (.text "COIN") (.text "BOX") shelf = .ok () t ∧ move (.text "COIN")
        (.text "SHELF") t = .ok () u ∧
      move (.text "COIN") (.text "SHELF") shelf = .ok () v ∧ u.records = v.records ∧
      (∀ c, u.children c = v.children c) ∧
      (v.children (.text "SHELF")).map Value.string? = [some "BOX", some "KEY", some "COIN"] := by
  have hd : shelf.isDefined (.text "COIN") := by decide +kernel
  obtain ⟨t, ht⟩ :=
    (exists_move_iff (p := .text "BOX") hd rfl (.of_isText rfl)).2 (by decide +kernel)
  obtain ⟨v, hv⟩ :=
    (exists_move_iff (p := .text "SHELF") hd rfl (.of_isText rfl)).2 (by decide +kernel)
  have h :=
    last_move_wins (q := .text "SHELF") reachable_shelf hd (.of_isText rfl) (.of_isText rfl) ht
  obtain ⟨u, hu⟩ := h.1.2 ⟨v, hv⟩
  obtain ⟨hrecords, hchildren⟩ := h.2 u v hu hv
  have hafter : v = (Call.move (.text "COIN") (.text "SHELF")).after shelf := by
    simp only [Call.after, Call.run, hv]
  refine ⟨t, u, v, reachable_shelf, hd, ht, hu, hv, hrecords, hchildren, ?_⟩
  rw [hafter]
  decide +kernel

/-- After two moves the objects that were moved are the last that have arrived. -/
theorem Moved.arrivals_both (ht : Moved s x p t) (hu : Moved t y q u)
    (hne : x.string? ≠ y.string?) :
    u.arrivals = (s.arrivals.filter fun a ↦ a.object.string? != x.string? &&
      a.object.string? != y.string?) ++
      [⟨x, p⟩, ⟨y, q⟩] := by
  rw [hu.arrivals, ht.arrivals, List.filter_append, List.filter_filter]
  simp [hne, Bool.and_comm]

theorem Moved.comm (ht : Moved s x p t) (hu : Moved t y q u)
    (hv : Moved s y q v) (hw : Moved v x p w) (hx : x.isText) (hy : y.isText)
    (hne : x.string? ≠ y.string?) (hp : p.IsPlace) (hq : q.IsPlace) (hpq : p.string? ≠ q.string?) :
    u.records = w.records ∧ ∀ c, u.children c = w.children c := by
  constructor
  · rw [hu.records, ht.records, hw.records, hv.records, Table.modify_comm _ hx hy hne]
  · intro c
    rw [children, children, ht.arrivals_both hu hne, hv.arrivals_both hw hne.symm]
    simp only [Bool.and_comm (_ != y.string?), List.filter_append]
    congr 2
    -- The two orders differ in the two latest arrivals only, and at most one of these is in the
    -- container.
    by_cases hpc : Value.alike p c
    · have hqc : Value.alike q c = false := Bool.eq_false_iff.2 fun hqc ↦
        hpq ((hp.string?_of_alike hpc).trans (hq.string?_of_alike hqc).symm)
      simp [hpc, hqc]
    · simp [hpc, List.filter_cons]

/-- Moves of two objects to two places that are both accepted in either order leave the same
records, and the same objects in the same order in every container. -/
theorem moves_commute (hr : Reachable s) (hx : s.isDefined x) (hy : s.isDefined y)
    (hxy : ¬ Value.same x y) (hp : p.IsPlace) (hq : q.IsPlace) (hpq : ¬ Value.same p q)
    (ht : move x p s = .ok () t) (hu : move y q t = .ok () u) (hv : move y q s = .ok () v)
    (hw : move x p v = .ok () w) :
    u.records = w.records ∧ ∀ c, u.children c = w.children c := by
  have hxt := hr.isText_of_isDefined hx
  have hyt := hr.isText_of_isDefined hy
  obtain ⟨hrt, hpt⟩ := hr.move hx hp ht
  obtain ⟨hrv, hpv⟩ := hr.move hy hq hv
  have hdy : t.isDefined y := by simp [hpt.isDefined y hyt, hy]
  have hdx : v.isDefined x := by simp [hpv.isDefined x hxt, hx]
  refine (hr.moved hx hp ht).comm (hrt.moved hdy hq hu) (hr.moved hy hq hv)
    (hrv.moved hdx hp hw) hxt hyt ?_ hp hq ?_
  · rwa [Value.same_eq_of_isText x hyt, beq_iff_eq] at hxy
  · rwa [Value.same_eq_of_isPlace hp hq, beq_iff_eq] at hpq

/-- The coin goes into the box and the box off the shelf, whichever comes first. -/
theorem coin_boxed_and_box_removed :
    ∃ t u v w, Reachable shelf ∧ shelf.isDefined (.text "COIN") ∧ shelf.isDefined (.text "BOX") ∧
      move (.text "COIN") (.text "BOX") shelf = .ok () t ∧ move (.text "BOX") .none t = .ok () u ∧
      move (.text "BOX") .none shelf = .ok () v ∧ move (.text "COIN") (.text "BOX") v = .ok () w ∧
      u.records = w.records ∧ ∀ c, u.children c = w.children c := by
  have hcoin : shelf.isDefined (.text "COIN") := by decide +kernel
  have hbox : shelf.isDefined (.text "BOX") := by decide +kernel
  obtain ⟨t, ht⟩ :=
    (exists_move_iff (p := .text "BOX") hcoin rfl (.of_isText rfl)).2 (by decide +kernel)
  obtain ⟨v, hv⟩ := (exists_move_iff (p := .none) hbox rfl Value.isPlace_none).2 (by decide +kernel)
  have hboxt : t.isDefined (.text "BOX") := by
    simp [(reachable_shelf.move hcoin (.of_isText rfl) ht).2.isDefined (.text "BOX") rfl, hbox]
  have hcoinv : v.isDefined (.text "COIN") := by
    simp [(reachable_shelf.move hbox Value.isPlace_none hv).2.isDefined (.text "COIN") rfl, hcoin]
  obtain ⟨u, hu⟩ := (exists_move_iff hboxt rfl Value.isPlace_none).2 (obstacle?_of_isNone _ rfl)
  have hafter : v = (Call.move (.text "BOX") .none).after shelf := by
    simp only [Call.after, Call.run, hv]
  obtain ⟨w, hw⟩ := (exists_move_iff (p := .text "BOX") hcoinv rfl (.of_isText rfl)).2 (by
    rw [hafter]
    decide +kernel)
  exact ⟨t, u, v, w, reachable_shelf, hcoin, hbox, ht, hu, hv, hw,
    moves_commute reachable_shelf hcoin hbox (by decide +kernel) (.of_isText rfl) Value.isPlace_none
      (by decide +kernel) ht hu hv hw⟩

end Store

end Fable
