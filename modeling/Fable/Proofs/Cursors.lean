import Fable.Proofs.Weight

namespace Fable.Store

variable {s : Store} {x y p : Value} {xs ys : List Value}

/-- Going from an object to the next until there is none, one meets the objects of the list. -/
inductive Passes (s : Store) : Value → List Value → Prop
  | done {x : Value} : x.isNone → Passes s x []
  | step {x y : Value} {xs : List Value} :
      x.isNone = false → s.next x = .ok y → Passes s y xs → Passes s x (x :: xs)

theorem exists_successor (hx : x.isText) (h : x.isAmong xs) : ∃ y, successor x xs = .ok y := by
  induction xs with
  | nil => simp [Value.isAmong] at h
  | cons z xs ih =>
    rw [successor]
    split
    · exact ⟨_, rfl⟩
    · next hz =>
      have hsym : Value.alike x z = Value.alike z x := by
        rw [Value.alike_eq_of_isText_left hx, Value.alike_eq_of_isText z hx, BEq.comm]
      refine ih ?_
      rwa [Value.isAmong, List.any_cons, hsym, Bool.eq_false_iff.2 hz, Bool.false_or] at h

/-- An object that is in something is to be found there. -/
theorem Reachable.isAmong_children_parent (hr : Reachable s) (h : (s.parent x).isNone = false) :
    x.isText ∧ x.isAmong (s.children (s.parent x)) := by
  have hd := s.isDefined_of_parent h
  have hx := hr.isText_of_isDefined hd
  have hplace := hr.nested.placed.parent (.of_isText hx)
  refine ⟨hx, (hr.tidy.same_parent_iff hr.nested.placed hx hd hplace).1 ?_⟩
  rw [Value.same_eq_of_isPlace hplace hplace, beq_self_eq_true]

theorem Reachable.exists_next (hr : Reachable s) (x : Value) : ∃ y, s.next x = .ok y := by
  rw [next]
  split
  · exact ⟨.none, rfl⟩
  · next h =>
    obtain ⟨hx, hamong⟩ := hr.isAmong_children_parent (Bool.eq_false_iff.2 h)
    exact exists_successor hx hamong

/-- There is but one way on from an object. -/
theorem Passes.unique (hxs : Passes s x xs) (hys : Passes s x ys) : xs = ys := by
  induction hxs generalizing ys with
  | done hx =>
    cases hys with
    | done _ => rfl
    | step hne _ _ => simp [hx] at hne
  | step hne hnext _ ih =>
    cases hys with
    | done hx => simp [hne] at hx
    | step _ hnext' hys =>
      cases hnext.symm.trans hnext'
      rw [ih hys]

/-- A way that ends within a limit is a way whatever the limit. -/
theorem passes_of_cursor {n : ℕ} (h : s.cursor n x = (xs, .ok ())) : Passes s x xs := by
  induction n generalizing x xs with
  | zero => simp [cursor] at h
  | succ n ih =>
    rw [cursor] at h
    split at h
    · next hx =>
      cases h
      exact .done hx
    · next hx =>
      cases hnext : s.next x with
      | error f => simp [hnext] at h
      | ok y =>
        cases hrest : s.cursor n y with
        | mk ys e =>
          simp only [hnext, hrest, Prod.mk.injEq] at h
          obtain ⟨rfl, rfl⟩ := h
          exact .step (Bool.eq_false_iff.2 hx) hnext (ih hrest)

theorem Tidy.passes_first_iff (ht : s.Tidy) (hp : p.isText) :
    Passes s (s.first p) xs ↔ xs = s.children p := by
  have hall : Passes s (s.first p) (s.children p) := passes_of_cursor (ht.walk_eq hp)
  exact ⟨fun h ↦ h.unique hall, fun h ↦ h ▸ hall⟩

/-- What comes after an object can always be told. Going from the first object in a container to the
next comes to an end, and on the way there are the contents of the container, in order, and nothing
else. -/
theorem next_passes_children (hr : Reachable s) : (∀ x, ∃ y, s.next x = .ok y) ∧
    ∀ p, p.isText → ∀ xs, Passes s (s.first p) xs ↔ xs = s.children p :=
  ⟨hr.exists_next, fun _ hp _ ↦ hr.tidy.passes_first_iff hp⟩

def unmadeBox : List Call := [
  .define (.text "COIN") { parent := .text "BOX" }, .define (.text "KEY") { parent := .text "BOX" },
  .move (.text "COIN") (.text "BOX"), .move (.text "KEY") (.text "KEY")]

theorem reachable_unmadeBox : Reachable (history unmadeBox) :=
  reachable_history (by decide +kernel)

theorem key_passed_before_coin :
    Reachable (history unmadeBox) ∧ (Value.text "BOX").isText ∧
      ∃ xs, Passes (history unmadeBox) ((history unmadeBox).first (.text "BOX")) xs ∧
        xs.map Value.string? = [some "KEY", some "COIN"] := by
  have h := (next_passes_children reachable_unmadeBox).2 (.text "BOX") rfl
  exact ⟨reachable_unmadeBox, rfl, _, (h _).2 rfl, by decide +kernel⟩

end Fable.Store
