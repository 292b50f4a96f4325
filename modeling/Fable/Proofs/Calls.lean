import Fable.Proofs.Places

namespace Fable

namespace Store

variable {s : Store}

theorem Call.keeps_after {c : Call} (hc : c.WellTyped) (h : c.placement? = none) (s : Store) :
    Keeps s (c.after s) := by
  have key : (∃ e, c.run s = .error e s) ∨ ∃ t, c.run s = .ok () t ∧ Keeps s t := by
    cases c with
    | define | move | remove => simp [placement?] at h
    | setFlag id flag => exact edit_keeps hc (f := (·.setFlag flag)) _ (fun _ ↦ rfl) s
    | clearFlag id flag => exact edit_keeps hc (f := (·.clearFlag flag)) _ (fun _ ↦ rfl) s
    | setProperty id key value =>
      simp only [run, Store.setProperty]
      cases Field.ofKey? key with
      | some f => exact edit_keeps hc _ (fun r ↦ setField_parent r f value) s
      | none => apply edit_keeps hc; exact fun _ ↦ rfl
  rcases key with ⟨e, he⟩ | ⟨t, ht, hk⟩
  · rw [after, he]
    exact .refl s
  · rwa [after, ht]

/-- A call that should put an object somewhere does so, or nothing changes: then it is refused, or
the object is not defined. -/
theorem Call.after_of_placement {c : Call} (hc : c.WellTyped) {p : Arrival}
    (h : c.placement? = some p) (s : Store) :
    c.accepted s ∧ Places s p.object p.container (c.after s) ∨
      c.after s = s ∧ (c.accepted s → s.isDefined p.object = false) := by
  have hmove {id into : Value} (hid : id.isText) (hp : into.IsPlace) :
      (move id into).accepted s ∧ Places s id into ((move id into).after s) ∨
        (move id into).after s = s ∧ ((move id into).accepted s → s.isDefined id = false) := by
    simp only [accepted, after, run]
    rcases move_cases hid hp s with ⟨f, -, he⟩ | ⟨hd, he⟩ | ⟨t, he, hpl⟩
    · simp [he]
    · simp [he, hd]
    · simp [he, hpl]
  cases c with
  | define id a =>
    obtain rfl := Option.some.inj h
    rcases define_cases hc.1 hc.2 s with ⟨f, -, he⟩ | ⟨r, -, he, hpl⟩
    · simp [accepted, after, run, Runs.discard_of_error he]
    · simp [accepted, after, run, Runs.discard_of_ok he, hpl]
  | move id into =>
    obtain rfl := Option.some.inj h
    exact hmove hc.1 hc.2
  | remove id =>
    obtain rfl := Option.some.inj h
    exact hmove hc Value.isPlace_none
  | setFlag | clearFlag | setProperty => simp [placement?] at h

theorem nested_empty : Nested {} where
  placed _ := Value.isPlace_none
  acyclic := Links.acyclic_empty

theorem Keeps.links_eq {t : Store} (h : Keeps s t) : t.links = s.links := by
  funext x
  rw [links, links, h.parent (.text x) rfl]

theorem Keeps.nested {t : Store} (h : Keeps s t) (hs : s.Nested) : t.Nested :=
  ⟨fun x ↦ by rw [h.parent (.text x) rfl]; exact hs.placed x, h.links_eq ▸ hs.acyclic⟩

theorem Places.links_eq {t : Store} {id into : Value} (h : Places s id into t) {a : String}
    (ha : id.string? = some a) : t.links = Function.update s.links a into.string? := by
  funext x
  rw [links, h.parent (.text x) rfl, ha]
  by_cases hx : x = a
  · subst hx
    simp [Value.string?]
  · have hne : ¬ some a = (Value.text x).string? := fun he ↦ hx (Option.some.inj he).symm
    rw [if_neg hne, Function.update_of_ne hx]
    rfl

theorem Places.nested {t : Store} {id into : Value} (h : Places s id into t) (hs : s.Nested) :
    t.Nested := by
  obtain ⟨a, ha⟩ := Value.isText_iff.1 h.isText
  refine ⟨fun x ↦ ?_, ?_⟩
  · rw [h.parent (.text x) rfl]
    split
    · exact h.isPlace
    · exact hs.placed x
  · rw [h.links_eq ha]
    refine hs.acyclic.update fun q hq ↦ ?_
    rw [hs.placed.reaches_iff hq ha,
      ← hs.obstacle?_eq_none_iff h.isText (Value.isText_iff.2 ⟨q, hq⟩)]
    exact h.free

theorem Call.nested_after {c : Call} (hc : c.WellTyped) (hs : s.Nested) : (c.after s).Nested := by
  cases h : c.placement? with
  | none => exact (c.keeps_after hc h s).nested hs
  | some p =>
    rcases c.after_of_placement hc h s with ⟨-, hp⟩ | ⟨he, -⟩
    · exact hp.nested hs
    · rwa [he]

theorem Reachable.nested (h : Reachable s) : s.Nested := by
  induction h with
  | empty => exact nested_empty
  | call _ hc ih => exact Call.nested_after hc ih

theorem ids_update (s : Store) (id : Value) (f : Record → Record) :
    (s.update id f).ids = s.ids := by
  refine (List.map_map ..).trans (List.map_congr_left fun e _ ↦ ?_)
  dsimp only [Function.comp]
  split <;> rfl

theorem Call.ids_move (id into : Value) (s : Store) :
    ((Call.move id into).after s).ids = s.ids := by
  cases hrun : Store.move id into s with
  | ok u t =>
    simp only [after, run, hrun]
    rcases of_move_ok hrun with rfl | ⟨r, -, -, rfl⟩
    · rfl
    · exact ids_update s id fun r ↦ { r with parent := into }
  | error f t => simp only [after, run, hrun, of_move_error hrun]

theorem ids_edit (id : Value) (objection : Option Fault) (f : Record → Record) (s : Store) :
    (match edit id objection f s with | .ok _ t => t | .error _ t => t).ids = s.ids := by
  cases hrun : edit id objection f s with
  | ok u t =>
    rcases of_edit_ok hrun with rfl | rfl
    · rfl
    · exact ids_update s id f
  | error e t => simp only [of_edit_error hrun]

/-- Objects keep the names under which they were defined, and a new one comes last. -/
theorem Call.ids_after {c : Call} (hc : c.WellTyped) (s : Store) : (c.after s).ids = s.ids ∨
    ∃ x, x.isText ∧ (∀ y ∈ s.ids, y.string? ≠ x.string?) ∧ (c.after s).ids = s.ids ++ [x] := by
  cases c with
  | define id a =>
    rcases define_cases hc.1 hc.2 s with ⟨f, -, he⟩ | ⟨r, hr, he, -⟩
    · exact .inl (by simp only [after, run, Runs.discard_of_error he])
    · have hids : ((Call.define id a).after s).ids = (s.records.insert r.id r).keys := by
        simp only [after, run, Runs.discard_of_ok he, ids, enter, attach, leave_records]
      rw [hids, Table.keys_insert, (record_place hr).1]
      by_cases hk : Table.contains s.records id
      · rw [if_pos hk]
        exact .inl rfl
      · refine .inr ⟨id, hc.1, fun y hy hyid ↦ hk ?_, if_neg hk⟩
        obtain ⟨e, hmem, rfl⟩ := List.mem_map.1 hy
        refine List.any_eq_true.2 ⟨e, hmem, ?_⟩
        rw [Value.alike_eq_of_isText _ hc.1, hyid, beq_self_eq_true]
  | move id into => exact .inl (Call.ids_move id into s)
  | remove id => exact .inl (Call.ids_move id .none s)
  | setFlag id flag => exact .inl (ids_edit id _ _ s)
  | clearFlag id flag => exact .inl (ids_edit id _ _ s)
  | setProperty id key value =>
    simp only [after, run, Store.setProperty]
    cases Field.ofKey? key with
    | some f => exact .inl (ids_edit id _ _ s)
    | none => exact .inl (ids_edit id _ _ s)

theorem Reachable.isText_of_mem_ids (h : Reachable s) {x : Value} (hx : x ∈ s.ids) : x.isText := by
  induction h with
  | empty => cases hx
  | @call s c _ hc ih =>
    rcases Call.ids_after hc s with hids | ⟨y, hy, -, hids⟩
    · exact ih (hids ▸ hx)
    · rcases List.mem_append.1 (hids ▸ hx) with hx | hx
      · exact ih hx
      · rwa [List.mem_singleton.1 hx]

/-- No two objects have the same name. -/
theorem Reachable.ids_pairwise (h : Reachable s) :
    s.ids.Pairwise fun x y ↦ x.string? ≠ y.string? := by
  induction h with
  | empty => exact .nil
  | @call s c _ hc ih =>
    rcases Call.ids_after hc s with hids | ⟨y, -, hnew, hids⟩
    · rwa [hids]
    · rw [hids]
      refine List.pairwise_append.2 ⟨ih, List.pairwise_singleton _ _, fun x hx z hz ↦ ?_⟩
      rw [List.mem_singleton.1 hz]
      exact hnew x hx

/-- Only texts name objects. -/
theorem Reachable.isText_of_isDefined (h : Reachable s) {x : Value} (hx : s.isDefined x) :
    x.isText := by
  obtain ⟨r, hr⟩ := Option.isSome_iff_exists.1 hx
  obtain ⟨e, he, ha, -⟩ := exists_mem_of_find? s hr
  have ht := h.isText_of_mem_ids (List.mem_map_of_mem he)
  rw [Value.alike_eq_of_isText_left ht, beq_iff_eq] at ha
  rwa [Value.isText, ← ha]

section

variable {t : Store}

theorem Reachable.setFlag (hs : Reachable s) {x flag : Value} (hx : x.isText)
    (h : Store.setFlag x flag s = .ok () t) : Reachable t ∧ Keeps s t := by
  have ha : (Call.setFlag x flag).after s = t := by simp only [Call.after, Call.run, h]
  rw [← ha]
  exact ⟨.call hs hx, Call.keeps_after (c := .setFlag x flag) hx rfl s⟩

theorem Reachable.clearFlag (hs : Reachable s) {x flag : Value} (hx : x.isText)
    (h : Store.clearFlag x flag s = .ok () t) : Reachable t ∧ Keeps s t := by
  have ha : (Call.clearFlag x flag).after s = t := by simp only [Call.after, Call.run, h]
  rw [← ha]
  exact ⟨.call hs hx, Call.keeps_after (c := .clearFlag x flag) hx rfl s⟩

theorem Reachable.move (hs : Reachable s) {x p : Value} (hd : s.isDefined x) (hp : p.IsPlace)
    (h : Store.move x p s = .ok () t) : Reachable t ∧ Places s x p t := by
  have hx := hs.isText_of_isDefined hd
  have ha : (Call.move x p).after s = t := by simp only [Call.after, Call.run, h]
  refine ⟨ha ▸ .call hs ⟨hx, hp⟩, ?_⟩
  rcases move_cases hx hp s with ⟨f, -, he⟩ | ⟨hu, -⟩ | ⟨t', he, hpl⟩
  · rw [he] at h
    cases h
  · simp [hu] at hd
  · rw [he] at h
    cases h
    exact hpl

end

/-- The change fails because an object would contain itself, and leaves this store. -/
def FailsByCycle {α : Type} (c : Change α) (s t : Store) : Prop :=
  ∃ x p, c s = .error (.cycle x p) t

theorem Nested.move_fails_iff (hs : s.Nested) {x p : Value} (hx : x.isText) (hp : p.isText)
    (hd : s.isDefined x) {t : Store} :
    FailsByCycle (move x p) s t ↔ t = s ∧ (Value.same p x ∨ s.Inside p x) := by
  obtain ⟨a, ha⟩ := Value.isText_iff.1 hx
  obtain ⟨b, hb⟩ := Value.isText_iff.1 hp
  rw [← not_not (a := Value.same p x ∨ s.Inside p x), ← hs.obstacle?_eq_none_iff hx hp]
  rcases move_cases hx (.of_isText hp) s with ⟨f, ho, he⟩ | ⟨hu, -⟩ | ⟨t', he, hpl⟩
  · obtain rfl : f = .cycle a b := by
      rw [obstacle?_eq_cycle ha hb (by simp [ho])] at ho
      exact (Option.some.inj ho).symm
    simp [FailsByCycle, he, ho, eq_comm]
  · simp [hu] at hd
  · simp [FailsByCycle, he, hpl.free]

/-- What speaks against a definition with known options is a cycle that it would close. -/
theorem Nested.refusal?_eq_some (hs : s.Nested) {x : Value} {a : Attributes}
    {n : String} {f : Fault} (hx : x.string? = some n) (hp : a.parent.IsPlace) (hu : a.unknown = [])
    (hc : a.clashing = false) (h : s.refusal? x a = some f) :
    ∃ m, a.parent.string? = some m ∧ f = .cycle n m ∧ s.links.Reaches m n := by
  have hxt : x.isText := Value.isText_iff.2 ⟨n, hx⟩
  have ho : s.obstacle? x a.parent ≠ none := by
    intro ho
    rw [(refusal?_eq_none_iff hxt a).2 ⟨hc, hu, ho⟩] at h
    simp at h
  rcases hp with hp | hp
  · exact absurd (obstacle?_of_isNone x hp) ho
  · obtain ⟨m, hm⟩ := Value.isText_iff.1 hp
    refine ⟨m, hm, ?_, ?_⟩
    · rw [refusal?, hc, hu, obstacle?_eq_cycle hx hm ho] at h
      exact (Option.some.inj h).symm
    · rw [hs.placed.reaches_iff hm hx]
      exact not_not.1 (mt (hs.obstacle?_eq_none_iff hxt hp).2 ho)

theorem Nested.define_fails_iff (hs : s.Nested) {x : Value} {a : Attributes} (hx : x.isText)
    (ha : a.WellTyped) (hp : a.parent.isText) (hu : a.unknown = []) (hc : a.clashing = false)
    {t : Store} :
    FailsByCycle (define x a) s t ↔ t = s ∧ (Value.same a.parent x ∨ s.Inside a.parent x) := by
  obtain ⟨n, hn⟩ := Value.isText_iff.1 hx
  rcases define_cases hx ha s with ⟨f, hr, he⟩ | ⟨r, -, he, hpl⟩
  · obtain ⟨m, hm, rfl, hreach⟩ := hs.refusal?_eq_some hn ha.parent hu hc hr
    rw [and_iff_left ((hs.placed.reaches_iff hm hn).1 hreach)]
    simp [FailsByCycle, he, eq_comm]
  · have hfree := (hs.obstacle?_eq_none_iff hx hp).1 hpl.free
    simp [FailsByCycle, he, hfree]

/-- Nothing is ever inside itself. A move of an object, and a definition with known options, fails
because of a cycle exactly if the place is the object itself or inside it; then the store is as
before. -/
theorem not_inside_self_and_cycles_refused {s : Store} (h : Reachable s) :
    (∀ x, x.isText → ¬ s.Inside x x) ∧
    (∀ x p, x.isText → p.isText → s.isDefined x →
      ((∃ t, FailsByCycle (move x p) s t) ↔ Value.same p x ∨ s.Inside p x) ∧
      ∀ t, FailsByCycle (move x p) s t → t = s) ∧
    ∀ x (a : Attributes), x.isText → a.WellTyped → a.parent.isText → a.unknown = [] →
      a.clashing = false →
      ((∃ t, FailsByCycle (define x a) s t) ↔ Value.same a.parent x ∨ s.Inside a.parent x) ∧
      ∀ t, FailsByCycle (define x a) s t → t = s := by
  have hs := h.nested
  refine ⟨fun x hx ↦ hs.not_inside_self hx, fun x p hx hp hd ↦ ?_, fun x a hx ha hp hu hc ↦ ?_⟩
  · simp [hs.move_fails_iff hx hp hd]
  · simp [hs.define_fails_iff hx ha hp hu hc]

/-- A box cannot be put into what is in it, and the attempt changes nothing. -/
theorem box_into_content_refused :
    let s := history [.define (.text "BOX") {}, .define (.text "COIN") { parent := .text "BOX" }]
    Reachable s ∧ (∃ t, FailsByCycle (move (.text "BOX") (.text "COIN")) s t) ∧
      ∀ t, FailsByCycle (move (.text "BOX") (.text "COIN")) s t → t = s := by
  intro s
  have hr : Reachable s := by
    apply reachable_history
    simp only [List.mem_cons, List.not_mem_nil, or_false]
    rintro c (rfl | rfl)
    · exact ⟨rfl, Value.isPlace_none, ⟨_, rfl⟩, ⟨_, rfl⟩⟩
    · exact ⟨rfl, .of_isText rfl, ⟨_, rfl⟩, ⟨_, rfl⟩⟩
  have h := (not_inside_self_and_cycles_refused hr).2.1 (.text "BOX") (.text "COIN") rfl rfl
    (by decide +kernel)
  exact ⟨hr, h.1.2 (.inr ⟨0, by decide +kernel⟩), h.2⟩

end Store

end Fable
