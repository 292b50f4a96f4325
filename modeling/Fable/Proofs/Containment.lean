import Fable.Object.Change
import Fable.Proofs.Links
import Fable.Proofs.Naming

namespace Fable.Store

variable (s : Store)

def links : Links := fun x ↦ (s.parent (.text x)).string?

def Placed : Prop := ∀ x : String, (s.parent (.text x)).IsPlace

/-- All objects are in places, and none is inside itself. -/
structure Nested : Prop where
  placed : s.Placed
  acyclic : s.links.Acyclic

/-- From the first object, one or more steps from container to container lead to the second. -/
def Inside (x y : Value) : Prop := ∃ n, Value.same (s.parent^[n + 1] x) y

theorem find?_eq_lookup? {x : Value} (hx : x.isText) : s.find? x = s.lookup? x := by
  simp [find?, Value.isNone_eq_false_of_isText hx]

theorem find?_congr {x y : Value} (hx : x.isText) (h : x.string? = y.string?) :
    s.find? x = s.find? y := by
  have hy : y.isText := by rwa [Value.isText, ← h]
  rw [find?_eq_lookup? s hx, find?_eq_lookup? s hy]
  exact Table.find?_congr s.records hx h

theorem find?_of_string? {x : Value} {n : String} (h : x.string? = some n) :
    s.find? x = s.find? (.text n) :=
  s.find?_congr (by simp [Value.isText, h]) h

theorem find?_of_mem (hp : s.ids.Pairwise fun x y ↦ x.string? ≠ y.string?) {e : Value × Record}
    (he : e ∈ s.records) (hname : e.1.isText) : s.find? e.1 = some e.2 :=
  (s.find?_eq_lookup? hname).trans (Table.find?_of_mem hp he hname)

theorem exists_mem_of_find? {x : Value} {r : Record} (h : s.find? x = some r) :
    ∃ e ∈ s.records, Value.alike e.1 x ∧ e.2 = r := by
  rw [find?] at h
  split at h
  · cases h
  · obtain ⟨e, he, rfl⟩ := Option.map_eq_some_iff.1 h
    have ha := List.find?_some he
    exact ⟨e, List.mem_of_find?_eq_some he, ha, rfl⟩

theorem parent_congr {x y : Value} (h : s.find? x = s.find? y) : s.parent x = s.parent y := by
  simp only [parent, h]

theorem parent_of_isNone {v : Value} (h : v.isNone) : s.parent v = .none := by
  simp [parent, find?, h]

theorem string?_parent {v : Value} (hv : v.IsPlace) :
    (s.parent v).string? = s.links.step v.string? := by
  rcases hv with hv | hv
  · rw [parent_of_isNone s hv, Value.string?_eq_none_of_isNone hv]
    rfl
  · obtain ⟨n, hn⟩ := Value.isText_iff.1 hv
    rw [parent_congr s (find?_of_string? s hn), hn]
    rfl

theorem isDefined_of_parent {x : Value} (h : (s.parent x).isNone = false) : s.isDefined x := by
  rw [parent] at h
  cases hf : s.find? x with
  | none => simp [hf, Value.isNone] at h
  | some r => simp [isDefined, hf]

theorem isDefined_of_visible {x l : Value} (h : s.visible x l) : s.isDefined x := by
  refine isDefined_of_parent s ?_
  rw [visible] at h
  split at h
  · simp at h
  · next hn => simpa using hn

theorem isDefined_of_hasFlag {x flag : Value} (h : s.hasFlag x flag) : s.isDefined x := by
  rw [hasFlag] at h
  cases hr : s.find? x with
  | none => rw [hr] at h; cases h
  | some r => rw [isDefined, hr, Option.isSome_some]

def names : List String := s.records.keys.filterMap Value.string?

theorem length_names_le : s.names.length ≤ s.records.length := by
  simpa [names, Table.keys] using List.length_filterMap_le Value.string? s.records.keys

theorem mem_names_of_isDefined {x : String} (h : s.isDefined (.text x)) : x ∈ s.names := by
  obtain ⟨r, hr⟩ := Option.isSome_iff_exists.1 h
  obtain ⟨e, he, -⟩ := Option.map_eq_some_iff.1 (show s.records.find? (.text x) = some r from hr)
  have ha := List.find?_some he
  simp only [Value.alike_eq_of_isText e.1 (show (Value.text x).isText from rfl), beq_iff_eq] at ha
  refine List.mem_filterMap.2 ⟨e.1, List.mem_map_of_mem (List.mem_of_find?_eq_some he), ha⟩

theorem isDefined_of_links {x : String} (h : (s.links x).isSome) : s.isDefined (.text x) :=
  isDefined_of_parent s (Value.isNone_eq_false_of_isText h)

variable {s}

theorem Placed.parent (hp : s.Placed) {v : Value} (hv : v.IsPlace) : (s.parent v).IsPlace := by
  rcases hv with hv | hv
  · rw [parent_of_isNone s hv]
    exact Value.isPlace_none
  · obtain ⟨n, hn⟩ := Value.isText_iff.1 hv
    rw [parent_congr s (find?_of_string? s hn)]
    exact hp n

theorem Placed.iterate (hp : s.Placed) {v : Value} (hv : v.IsPlace) (n : ℕ) :
    (s.parent^[n] v).IsPlace ∧ (s.parent^[n] v).string? = s.links.step^[n] v.string? := by
  induction n with
  | zero => exact ⟨hv, rfl⟩
  | succ n ih =>
    simp only [Function.iterate_succ_apply']
    exact ⟨hp.parent ih.1, by rw [string?_parent s ih.1, ih.2]⟩

theorem Placed.inside_iff (hp : s.Placed) {x y : Value} (hx : x.IsPlace) (hy : y.isText) :
    s.Inside x y ↔ ∃ n, s.links.step^[n + 1] x.string? = y.string? := by
  refine exists_congr fun n ↦ ?_
  rw [Value.same_eq_of_isText _ hy, beq_iff_eq, (hp.iterate hx (n + 1)).2]

theorem Placed.reaches_iff (hp : s.Placed) {x y : Value} {a b : String} (hx : x.string? = some a)
    (hy : y.string? = some b) : s.links.Reaches a b ↔ Value.same x y ∨ s.Inside x y := by
  have hyt : y.isText := Value.isText_iff.2 ⟨b, hy⟩
  rw [hp.inside_iff (.of_isText (Value.isText_iff.2 ⟨a, hx⟩)) hyt,
    Value.same_eq_of_isText _ hyt, hx, hy]
  constructor
  · rintro ⟨n, hn⟩
    cases n with
    | zero => exact .inl (beq_iff_eq.2 hn)
    | succ n => exact .inr ⟨n, hn⟩
  · rintro (h | ⟨n, hn⟩)
    · exact ⟨0, eq_of_beq h⟩
    · exact ⟨n + 1, hn⟩

theorem Nested.not_inside_self (hs : s.Nested) {x : Value} (hx : x.isText) :
    ¬ s.Inside x x := by
  rw [hs.placed.inside_iff (.of_isText hx) hx]
  rintro ⟨n, hn⟩
  obtain ⟨a, hxa⟩ := Value.isText_iff.1 hx
  rw [hxa] at hn
  exact hs.acyclic a n hn

theorem Nested.isNone_iterate (hs : s.Nested) {v : Value} (hv : v.IsPlace)
    {n : ℕ} (hn : s.records.length < n) : (s.parent^[n] v).isNone := by
  refine (hs.placed.iterate hv n).1.isNone_of_string? ?_
  rw [(hs.placed.iterate hv n).2]
  by_contra hne
  have hle := length_names_le s
  have hsome := Links.iterate_isSome (Option.isSome_iff_ne_none.2 hne)
    (show s.names.length + 1 ≤ n by omega)
  rw [hs.acyclic.iterate_eq_none fun a h ↦ mem_names_of_isDefined s (isDefined_of_links s h)]
    at hsome
  simp at hsome

theorem of_mem_chain {n : ℕ} {seen : List Value} {current v : Value}
    (h : v ∈ s.chain n seen current) : v.isNone = false ∧ ∃ k, v = s.parent^[k] current := by
  induction n generalizing seen current with
  | zero => simp [chain] at h
  | succ n ih =>
    rw [chain] at h
    split at h
    · simp at h
    · next hc =>
      rcases List.mem_cons.1 h with rfl | h
      · exact ⟨by simp_all, 0, rfl⟩
      · obtain ⟨hv, k, hk⟩ := ih h
        exact ⟨hv, k + 1, hk⟩

theorem Placed.isText_iterate_of_le (hp : s.Placed) {v : Value} (hv : v.IsPlace) {m n : ℕ}
    (hm : m ≤ n) (hn : (s.parent^[n] v).isNone = false) : (s.parent^[m] v).isText := by
  have ht := (hp.iterate hv n).1.isText_iff_ne.2 hn
  rw [Value.isText, (hp.iterate hv n).2] at ht
  rw [Value.isText, (hp.iterate hv m).2]
  exact Links.iterate_isSome ht hm

/-- Nothing that was seen on the way from `x` comes again, so that the chain goes on to its end. -/
theorem Nested.mem_chain (hs : s.Nested) {x : Value} (hx : x.isText)
    {n i k : ℕ} {seen : List Value} (hseen : ∀ v ∈ seen, ∃ j ≤ i, v = s.parent^[j] x) (hk : k < n)
    (hv : (s.parent^[i + 1 + k] x).isNone = false) :
    s.parent^[i + 1 + k] x ∈ s.chain n seen (s.parent^[i + 1] x) := by
  have hxp := Value.IsPlace.of_isText hx
  induction n generalizing i k seen with
  | zero => omega
  | succ n ih =>
    have hcur : (s.parent^[i + 1] x).isText := hs.placed.isText_iterate_of_le hxp (by omega) hv
    have hfresh : (s.parent^[i + 1] x).isAmong seen = false := by
      by_contra hmem
      obtain ⟨v, hmem, hal⟩ := List.any_eq_true.1 (Bool.not_eq_false _ ▸ hmem)
      obtain ⟨j, hj, rfl⟩ := hseen v hmem
      rw [Value.alike_eq_of_isPlace (hs.placed.iterate hxp _).1 (hs.placed.iterate hxp _).1,
        beq_iff_eq, (hs.placed.iterate hxp _).2, (hs.placed.iterate hxp _).2] at hal
      rw [Value.isText, (hs.placed.iterate hxp _).2] at hcur
      exact hs.acyclic.iterate_ne (Nat.lt_succ_of_le hj) hcur hal.symm
    rw [chain, Value.isNone_eq_false_of_isText hcur, hfresh, Bool.or_false,
      if_neg Bool.false_ne_true, ← Function.iterate_succ_apply' s.parent]
    cases k with
    | zero => exact List.mem_cons_self
    | succ k =>
      refine List.mem_cons_of_mem _ ?_
      rw [show i + 1 + (k + 1) = i + 1 + 1 + k by omega] at hv ⊢
      refine ih (fun v hv ↦ ?_) (by omega) hv
      rcases List.mem_cons.1 hv with rfl | hv
      · exact ⟨i + 1, Nat.le_refl _, rfl⟩
      · obtain ⟨j, hj, he⟩ := hseen v hv
        exact ⟨j, by omega, he⟩

theorem Nested.mem_ancestors_iff (hs : s.Nested) {x v : Value}
    (hx : x.isText) : v ∈ s.ancestors x ↔ v.isNone = false ∧ ∃ n, v = s.parent^[n + 1] x := by
  constructor
  · exact fun h ↦ of_mem_chain h
  · rintro ⟨hv, n, rfl⟩
    have hn : n < s.records.length + 1 := by
      by_contra hlt
      have he := hs.isNone_iterate (.of_isText hx) (show s.records.length < n + 1 by omega)
      rw [he] at hv
      simp at hv
    have hseen : ∀ v ∈ [x], ∃ j ≤ 0, v = s.parent^[j] x := by
      intro v hv
      exact ⟨0, Nat.le_refl 0, List.mem_singleton.1 hv⟩
    rw [show n + 1 = 0 + 1 + n by omega] at hv ⊢
    exact hs.mem_chain hx hseen hn hv

/-- An object is held by exactly those that it is inside of. -/
theorem Nested.held_iff (hs : s.Nested) {x y : Value} (hx : x.isText)
    (hy : y.isText) : s.held x y ↔ s.Inside x y := by
  rw [held, List.any_eq_true]
  constructor
  · rintro ⟨v, hv, he⟩
    obtain ⟨-, n, rfl⟩ := (hs.mem_ancestors_iff hx).1 hv
    exact ⟨n, he⟩
  · rintro ⟨n, he⟩
    refine ⟨_, (hs.mem_ancestors_iff hx).2 ⟨?_, n, rfl⟩, he⟩
    apply Value.isNone_eq_false_of_isText
    rwa [Value.isText, eq_of_beq ((Value.same_eq_of_isText _ hy).symm.trans he)]

theorem obstacle?_of_isNone (x : Value) {p : Value} (hp : p.isNone) : s.obstacle? x p = none := by
  simp [obstacle?, hp]

theorem text_of_string? {v : Value} {n : String} (h : v.string? = some n) : s.text v = .ok n := by
  cases v <;> simp_all [Value.string?, text, Value.textBy]

theorem cycleFault_of_isText {x p : Value} {a b : String} (hx : x.string? = some a)
    (hp : p.string? = some b) : s.cycleFault x p = .cycle a b := by
  simp only [cycleFault, text_of_string? hx, text_of_string? hp]

theorem equal_of_isText (v : Value) {x : Value} (hx : x.isText) : s.equal v x = Value.same v x := by
  rw [equal, Value.equalBy_eq, Value.sameBy_eq_of_isText _ v hx, Value.same_eq_of_isText v hx]

theorem obstacle?_eq_none_iff_held {x p : Value} (hx : x.isText) (hb : p.isText) :
    s.obstacle? x p = none ↔ ¬ (Value.same p x ∨ s.held p x) := by
  rw [obstacle?, Value.isNone_eq_false_of_isText hb, Value.hashable_of_isText hb,
    equal_of_isText p hx]
  by_cases he : Value.same p x <;> by_cases hh : s.held p x <;> simp [he, hh]

/-- What stands in the way of an object is that the place is the object itself or inside it. -/
theorem Nested.obstacle?_eq_none_iff (hs : s.Nested) {x p : Value}
    (hx : x.isText) (hb : p.isText) :
    s.obstacle? x p = none ↔ ¬ (Value.same p x ∨ s.Inside p x) := by
  rw [← hs.held_iff hb hx]
  exact obstacle?_eq_none_iff_held hx hb

theorem obstacle?_eq_cycle {x p : Value} {a b : String} (hx : x.string? = some a)
    (hp : p.string? = some b) (h : s.obstacle? x p ≠ none) :
    s.obstacle? x p = some (.cycle a b) := by
  have hb : p.isText := Value.isText_iff.2 ⟨b, hp⟩
  rw [obstacle?, Value.isNone_eq_false_of_isText hb, Value.hashable_of_isText hb,
    cycleFault_of_isText hx hp] at h ⊢
  by_cases hs : s.equal p x <;> by_cases hh : s.held p x <;> simp_all

end Fable.Store
