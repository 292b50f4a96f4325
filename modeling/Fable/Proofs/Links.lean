import Mathlib.Data.List.Nodup
import Mathlib.Logic.Function.Iterate

namespace Fable

abbrev Links := String → Option String

namespace Links

variable (l : Links)

def step (a : Option String) : Option String := a.bind l

def Acyclic : Prop := ∀ a n, l.step^[n + 1] (some a) ≠ some a

def Reaches (a b : String) : Prop := ∃ n, l.step^[n] (some a) = some b

@[simp] theorem step_some (a : String) : l.step (some a) = l a := rfl

@[simp] theorem iterate_step_none (n : ℕ) : l.step^[n] none = none :=
  Function.iterate_fixed rfl n

theorem acyclic_empty : Acyclic fun _ ↦ none := by
  intro a n h
  rw [Function.iterate_succ_apply, step_some, iterate_step_none] at h
  simp at h

variable {l}

theorem iterate_isSome {a : Option String} {m n : ℕ} (h : (l.step^[n] a).isSome) (hm : m ≤ n) :
    (l.step^[m] a).isSome := by
  obtain ⟨k, rfl⟩ := Nat.exists_eq_add_of_le' hm
  rw [Function.iterate_add_apply] at h
  cases hs : l.step^[m] a with
  | none => simp [hs] at h
  | some b => rfl

/-- Links that differ at one name only lead the same way from where that name is not met. -/
theorem iterate_update_of_avoids {x : String} {p a : Option String}
    (h : ∀ n, l.step^[n] a ≠ some x) (n : ℕ) :
    (step (Function.update l x p))^[n] a = l.step^[n] a := by
  induction n with
  | zero => rfl
  | succ n ih =>
    rw [Function.iterate_succ_apply', ih, Function.iterate_succ_apply']
    cases hs : l.step^[n] a with
    | none => rfl
    | some b =>
      have hb : b ≠ x := fun he ↦ h n (by rw [hs, he])
      simp [Function.update_of_ne hb]

/-- A link whose end does not lead back to its start closes no cycle. -/
theorem Acyclic.update (hl : l.Acyclic) {x : String} {p : Option String}
    (hp : ∀ q, p = some q → ¬ l.Reaches q x) : Acyclic (Function.update l x p) := by
  intro a n ha
  by_cases hx : ∃ m, (step (Function.update l x p))^[m] (some a) = some x
  · -- A cycle through `x` is one from `x` on: it goes on at `p`, and from there the links are
    -- the old ones.
    obtain ⟨m, hm⟩ := hx
    have hc : (step (Function.update l x p))^[n + 1] (some x) = some x := by
      rw [← hm, ← Function.iterate_add_apply, Nat.add_comm, Function.iterate_add_apply, ha]
    rw [Function.iterate_succ_apply, step_some, Function.update_self] at hc
    cases p with
    | none => simp at hc
    | some q =>
      have havoid : ∀ k, l.step^[k] (some q) ≠ some x := fun k hk ↦ hp q rfl ⟨k, hk⟩
      rw [iterate_update_of_avoids havoid] at hc
      exact havoid n hc
  · have he := iterate_update_of_avoids (p := l x) (not_exists.1 hx) (n + 1)
    rw [Function.update_idem, Function.update_eq_self] at he
    exact hl a n (he.trans ha)

theorem iterate_of_le {l' : Links} (h : ∀ a b, l a = some b → l' a = some b) {a b : String} {n : ℕ}
    (hn : l.step^[n] (some a) = some b) : l'.step^[n] (some a) = some b := by
  induction n generalizing b with
  | zero => exact hn
  | succ n ih =>
    rw [Function.iterate_succ_apply'] at hn ⊢
    cases hs : l.step^[n] (some a) with
    | none => simp [hs, step] at hn
    | some c => rw [ih hs]; exact h c b (by simpa [hs] using hn)

theorem acyclic_of_decreasing (rank : String → ℕ) (h : ∀ a b, l a = some b → rank b < rank a) :
    l.Acyclic := by
  have hrank {a b : String} {n : ℕ} (hn : l.step^[n + 1] (some a) = some b) : rank b < rank a := by
    induction n generalizing a with
    | zero => exact h a b hn
    | succ n ih =>
      rw [Function.iterate_succ_apply, step_some] at hn
      cases hc : l a with
      | none => simp [hc] at hn
      | some c => exact Nat.lt_trans (ih (hc ▸ hn)) (h a c hc)
  exact fun a n hn ↦ Nat.lt_irrefl _ (hrank hn)

/-- Without cycles no name comes twice on one way. -/
theorem Acyclic.iterate_ne (hl : l.Acyclic) {a : Option String} {m n : ℕ} (hmn : m < n)
    (h : (l.step^[n] a).isSome) : l.step^[m] a ≠ l.step^[n] a := by
  intro he
  obtain ⟨k, rfl⟩ := Nat.exists_eq_add_of_lt hmn
  obtain ⟨b, hb⟩ := Option.isSome_iff_exists.1 (iterate_isSome h (Nat.le_of_lt hmn))
  rw [show m + k + 1 = k + 1 + m by omega, Function.iterate_add_apply, hb] at he
  exact hl b k he.symm

/-- Without cycles a way ends once every name with a link has been passed. -/
theorem Acyclic.iterate_eq_none (hl : l.Acyclic) {names : List String}
    (hn : ∀ a, (l a).isSome → a ∈ names) (a : Option String) :
    l.step^[names.length + 1] a = none := by
  by_contra hne
  have hs : (l.step^[names.length + 1] a).isSome := Option.isSome_iff_ne_none.2 hne
  let way := (List.range (names.length + 1)).map fun i ↦ l.step^[i] a
  have hnodup : way.Nodup := by
    refine List.nodup_range.map_on fun i hi j hj he ↦ ?_
    simp only [List.mem_range] at hi hj
    rcases Nat.lt_trichotomy i j with h | h | h
    · exact absurd he (hl.iterate_ne h (iterate_isSome hs (Nat.le_of_lt hj)))
    · exact h
    · exact absurd he.symm (hl.iterate_ne h (iterate_isSome hs (Nat.le_of_lt hi)))
  have hsub : way ⊆ names.map some := by
    intro o ho
    obtain ⟨i, hr, rfl⟩ := List.mem_map.1 ho
    have hi := List.mem_range.1 hr
    obtain ⟨b, hb⟩ := Option.isSome_iff_exists.1 (iterate_isSome hs (Nat.le_of_lt hi))
    have hnext := iterate_isSome hs (Nat.succ_le_of_lt hi)
    rw [Function.iterate_succ_apply', hb] at hnext
    exact List.mem_map.2 ⟨b, hn b hnext, hb.symm⟩
  have hlen := hnodup.length_le_of_subset hsub
  simp only [way, List.length_map, List.length_range] at hlen
  omega

end Links

end Fable
