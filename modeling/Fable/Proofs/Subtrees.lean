import Fable.Library.Listing
import Fable.Proofs.Arrivals
import Mathlib.Algebra.BigOperators.Group.Finset.Piecewise
import Mathlib.Algebra.Ring.Int.Defs

namespace Fable

namespace Links

variable {l : Links} {names : Finset String} {a b c : String}

open Classical in
/-- The names from which one or more steps lead to the given one. -/
noncomputable def below (l : Links) (names : Finset String) (c : String) : Finset String :=
  names.filter fun y ↦ ∃ n, l.step^[n + 1] (some y) = some c

theorem mem_below : a ∈ l.below names c ↔ a ∈ names ∧ ∃ n, l.step^[n + 1] (some a) = some c := by
  classical
  rw [below, Finset.mem_filter]

theorem mem_names_of_mem (hc : c ∈ names) (h : a ∈ insert c (l.below names c)) : a ∈ names := by
  rcases Finset.mem_insert.1 h with rfl | h
  · exact hc
  · exact (mem_below.1 h).1

theorem Acyclic.notMem_below (hl : l.Acyclic) (c : String) : c ∉ l.below names c := by
  rw [mem_below]
  rintro ⟨-, n, hn⟩
  exact hl c n hn

theorem reaches_of_mem (h : a ∈ insert c (l.below names c)) : l.Reaches a c := by
  rcases Finset.mem_insert.1 h with rfl | h
  · exact ⟨0, rfl⟩
  · obtain ⟨-, n, hn⟩ := mem_below.1 h
    exact ⟨n + 1, hn⟩

theorem mem_of_reaches (ha : a ∈ names) (h : l.Reaches a c) : a ∈ insert c (l.below names c) := by
  obtain ⟨n, hn⟩ := h
  cases n with
  | zero => exact Finset.mem_insert.2 (.inl (Option.some.inj hn))
  | succ n => exact Finset.mem_insert_of_mem (mem_below.2 ⟨ha, n, hn⟩)

/-- Of two names that are met on one way, one comes first. -/
theorem Reaches.total (hb : l.Reaches a b) (hc : l.Reaches a c) :
    l.Reaches b c ∨ l.Reaches c b := by
  obtain ⟨m, hm⟩ := hb
  obtain ⟨n, hn⟩ := hc
  rcases Nat.le_total m n with h | h
  · obtain ⟨k, rfl⟩ := Nat.exists_eq_add_of_le' h
    rw [Function.iterate_add_apply, hm] at hn
    exact .inl ⟨k, hn⟩
  · obtain ⟨k, rfl⟩ := Nat.exists_eq_add_of_le' h
    rw [Function.iterate_add_apply, hn] at hm
    exact .inr ⟨k, hm⟩

theorem Acyclic.eq_of_reaches (hl : l.Acyclic) (ha : l a = some c) (hb : l b = some c)
    (h : l.Reaches a b) : a = b := by
  obtain ⟨n, hn⟩ := h
  cases n with
  | zero => exact Option.some.inj hn
  | succ n =>
    rw [Function.iterate_succ_apply, step_some, ha] at hn
    refine absurd ?_ (hl c n)
    rw [Function.iterate_succ_apply', hn, step_some, hb]

theorem below_eq_biUnion (hn : ∀ a, (l a).isSome → a ∈ names) (c : String) :
    l.below names c = (names.filter (l · = some c)).biUnion fun x ↦ insert x (l.below names x) := by
  ext y
  simp only [Finset.mem_biUnion, Finset.mem_filter]
  constructor
  · intro hy
    obtain ⟨hmem, n, hn'⟩ := mem_below.1 hy
    rw [Function.iterate_succ_apply'] at hn'
    -- The last step before `c` is made from one of the names that are linked to it.
    cases hx : l.step^[n] (some y) with
    | none => simp [hx, step] at hn'
    | some x =>
      rw [hx, step_some] at hn'
      exact ⟨x, ⟨hn x (by simp [hn']), hn'⟩, mem_of_reaches hmem ⟨n, hx⟩⟩
  · rintro ⟨x, ⟨hx, hxc⟩, hy⟩
    obtain ⟨n, hn'⟩ := reaches_of_mem hy
    refine mem_below.2 ⟨mem_names_of_mem hx hy, n, ?_⟩
    rw [Function.iterate_succ_apply', hn', step_some, hxc]

/-- What is below a name is, once each, the names linked to it and what is below those. -/
theorem Acyclic.sum_below (hl : l.Acyclic) (hn : ∀ a, (l a).isSome → a ∈ names) (c : String)
    (f : String → ℤ) : ∑ y ∈ l.below names c, f y =
      ∑ x ∈ names.filter (l · = some c), (f x + ∑ y ∈ l.below names x, f y) := by
  rw [below_eq_biUnion hn c, Finset.sum_biUnion]
  · refine Finset.sum_congr rfl fun x _ ↦ ?_
    rw [Finset.sum_insert (hl.notMem_below x)]
  · intro x hx y hy hne
    obtain ⟨-, hxc⟩ := Finset.mem_filter.1 (Finset.mem_coe.1 hx)
    obtain ⟨-, hyc⟩ := Finset.mem_filter.1 (Finset.mem_coe.1 hy)
    refine Finset.disjoint_left.2 fun a hax hay ↦ hne ?_
    rcases (reaches_of_mem hax).total (reaches_of_mem hay) with h | h
    · exact hl.eq_of_reaches hxc hyc h
    · exact (hl.eq_of_reaches hyc hxc h).symm

/-- Up to the name whose link is new the way is the old one. -/
theorem Acyclic.iterate_update (hl : l.Acyclic) {n : ℕ} (p : Option String)
    (hn : l.step^[n] (some a) = some b) {m : ℕ} (hm : m ≤ n) :
    (step (Function.update l b p))^[m] (some a) = l.step^[m] (some a) := by
  induction m with
  | zero => rfl
  | succ m ih =>
    rw [Function.iterate_succ_apply', ih (by omega), Function.iterate_succ_apply']
    cases hs : l.step^[m] (some a) with
    | none => rfl
    | some e =>
      have hne : e ≠ b := by
        rintro rfl
        exact hl.iterate_ne (show m < n by omega) (by simp [hn]) (hs.trans hn.symm)
      rw [step_some, step_some, Function.update_of_ne hne]

section

variable {p : Option String} (hl : l.Acyclic) (hp : ∀ n, l.step^[n] p ≠ some b)

include hl hp

/-- Behind the name whose link is new the way goes on where that link leads. -/
theorem Acyclic.iterate_update_add {m : ℕ} (hm : l.step^[m] (some a) = some b) (n : ℕ) :
    (step (Function.update l b p))^[n + 1 + m] (some a) = l.step^[n] p := by
  have hb : (step (Function.update l b p))^[m] (some a) = some b :=
    (hl.iterate_update p hm (Nat.le_refl m)).trans hm
  rw [Function.iterate_add_apply, hb, Function.iterate_succ_apply, step_some, Function.update_self,
    iterate_update_of_avoids hp]

/-- A name from which the new link is reached has the same names below it as before. -/
theorem Acyclic.below_update_of_reaches (hc : l.Reaches c b) :
    below (Function.update l b p) names c = l.below names c := by
  ext y
  simp only [mem_below]
  refine and_congr_right fun _ ↦ exists_congr fun n ↦ ?_
  by_cases hy : l.Reaches y b
  · obtain ⟨m, hm⟩ := hy
    obtain ⟨k, hk⟩ := hc
    rcases Nat.lt_or_ge n m with h | h
    · rw [hl.iterate_update p hm h]
    · obtain ⟨i, rfl⟩ := Nat.exists_eq_add_of_le' h
      rw [show i + m + 1 = i + 1 + m by omega, hl.iterate_update_add hp hm,
        Function.iterate_add_apply, hm]
      constructor
      · intro hi
        refine absurd ?_ (hp (k + i))
        rw [Function.iterate_add_apply, hi, hk]
      · intro hi
        refine absurd ?_ (hl b (k + i))
        rw [Nat.add_assoc, Function.iterate_add_apply, hi, hk]
  · rw [iterate_update_of_avoids (not_exists.1 hy)]

/-- From a name that leads to the new link, the names behind it are those to which the link
leads. -/
theorem Acyclic.exists_iterate_update_iff (ha : l.Reaches a b) (hc : ¬ l.Reaches c b) :
    (∃ n, (step (Function.update l b p))^[n + 1] (some a) = some c) ↔
    ∃ n, l.step^[n] p = some c := by
  obtain ⟨m, hm⟩ := ha
  constructor
  · rintro ⟨n, hn⟩
    rcases Nat.lt_or_ge n m with h | h
    · obtain ⟨k, rfl⟩ := Nat.exists_eq_add_of_le' (Nat.succ_le_of_lt h)
      rw [hl.iterate_update p hm (by omega)] at hn
      rw [Function.iterate_add_apply, hn] at hm
      exact absurd ⟨k, hm⟩ hc
    · obtain ⟨i, rfl⟩ := Nat.exists_eq_add_of_le' h
      rw [show i + m + 1 = i + 1 + m by omega, hl.iterate_update_add hp hm] at hn
      exact ⟨i, hn⟩
  · rintro ⟨n, hn⟩
    refine ⟨n + m, ?_⟩
    rw [show n + m + 1 = n + 1 + m by omega, hl.iterate_update_add hp hm, hn]

open Classical in
/-- Where a name does not lead to the new link, what is below the link comes with it as a whole, or
not at all. -/
theorem Acyclic.sum_below_update_of_not_reaches (hb : b ∈ names)
    (hc : ¬ l.Reaches c b) (f : String → ℤ) :
    ∑ y ∈ below (Function.update l b p) names c, f y =
      (∑ y ∈ l.below names c \ insert b (l.below names b), f y) +
        if ∃ n, l.step^[n] p = some c then f b + ∑ y ∈ l.below names b, f y else 0 := by
  have houtside : below (Function.update l b p) names c \ insert b (l.below names b) =
      l.below names c \ insert b (l.below names b) := by
    ext y
    simp only [Finset.mem_sdiff]
    refine and_congr_left fun hy ↦ ?_
    by_cases hmem : y ∈ names
    · have havoid : ∀ n, l.step^[n] (some y) ≠ some b := fun n hn ↦ hy (mem_of_reaches hmem ⟨n, hn⟩)
      simp only [mem_below, iterate_update_of_avoids havoid]
    · simp only [mem_below, hmem, false_and]
  have hinside : below (Function.update l b p) names c ∩ insert b (l.below names b) =
      if ∃ n, l.step^[n] p = some c then insert b (l.below names b) else ∅ := by
    ext y
    by_cases hy : y ∈ insert b (l.below names b)
    · have hiff := hl.exists_iterate_update_iff hp (reaches_of_mem hy) hc
      rw [Finset.mem_inter, mem_below, hiff, and_iff_right (mem_names_of_mem hb hy)]
      split <;> simp_all
    · split <;> simp_all
  rw [← Finset.sum_inter_add_sum_sdiff _ (insert b (l.below names b)), houtside, hinside, add_comm]
  split
  · rw [Finset.sum_insert (hl.notMem_below b)]
  · rw [Finset.sum_empty]

end

open Classical in
/-- A new link takes what is below it away from the names to which the old one leads, and brings it
to those to which the new one leads. -/
theorem Acyclic.sum_below_update {p : Option String} (hl : l.Acyclic)
    (hp : ∀ n, l.step^[n] p ≠ some b) (hb : b ∈ names) (c : String) (f : String → ℤ) :
    ∑ y ∈ below (Function.update l b p) names c, f y = (∑ y ∈ l.below names c, f y) -
      (if b ∈ l.below names c then f b + ∑ y ∈ l.below names b, f y else 0) +
        if ∃ n, l.step^[n] p = some c then f b + ∑ y ∈ l.below names b, f y else 0 := by
  by_cases hc : l.Reaches c b
  · obtain ⟨k, hk⟩ := hc
    have hold : b ∉ l.below names c := by
      rw [mem_below]
      rintro ⟨-, n, hn⟩
      refine hl b (k + n) ?_
      rw [Nat.add_assoc, Function.iterate_add_apply, hn, hk]
    have hnew : ¬ ∃ n, l.step^[n] p = some c := by
      rintro ⟨n, hn⟩
      refine hp (k + n) ?_
      rw [Function.iterate_add_apply, hn, hk]
    rw [hl.below_update_of_reaches hp ⟨k, hk⟩, if_neg hold, if_neg hnew, sub_zero, add_zero]
  · -- The old link is one to compare the new one with.
    have hself : ∀ n, l.step^[n] (l b) ≠ some b := fun n hn ↦ hl b n hn
    have hold := hl.sum_below_update_of_not_reaches hself hb hc f
    have hmem : b ∈ l.below names c ↔ ∃ n, l.step^[n] (l b) = some c := by
      rw [mem_below, and_iff_right hb]
      rfl
    rw [Function.update_eq_self] at hold
    rw [hl.sum_below_update_of_not_reaches hp hb hc f, hold]
    simp only [hmem]
    omega

end Links

namespace Value

end Value

end Fable
