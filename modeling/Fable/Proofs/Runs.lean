import Fable.Game.State
import Mathlib.Order.Defs.Unbundled

namespace Fable.Runs

variable {ε σ α β : Type} {x : EStateM ε σ α} {s t : σ}

theorem bind_of_ok {a : α} (h : x s = .ok a t) (f : α → EStateM ε σ β) : (x >>= f) s = f a t := by
  show EStateM.bind x f s = f a t
  simp only [EStateM.bind, h]

theorem bind_of_error {e : ε} (h : x s = .error e t) (f : α → EStateM ε σ β) :
    (x >>= f) s = .error e t := by
  show EStateM.bind x f s = .error e t
  simp only [EStateM.bind, h]

theorem of_bind_ok {f : α → EStateM ε σ β} {b : β} (h : (x >>= f) s = .ok b t) :
    ∃ a u, x s = .ok a u ∧ f a u = .ok b t := by
  cases hx : x s with
  | ok a u =>
    rw [bind_of_ok hx] at h
    exact ⟨a, u, rfl, h⟩
  | error e u =>
    rw [bind_of_error hx] at h
    cases h

theorem of_bind_error {f : α → EStateM ε σ β} {e : ε} (h : (x >>= f) s = .error e t) :
    x s = .error e t ∨ ∃ a u, x s = .ok a u ∧ f a u = .error e t := by
  cases hx : x s with
  | ok a u =>
    rw [bind_of_ok hx] at h
    exact .inr ⟨a, u, rfl, h⟩
  | error e' u =>
    rw [bind_of_error hx] at h
    cases h
    exact .inl rfl

theorem get_bind (f : σ → EStateM ε σ β) : ((get : EStateM ε σ σ) >>= f) s = f s s := rfl

theorem discard_of_ok {a : α} (h : x s = .ok a t) : discard x s = .ok () t := by
  show EStateM.map (Function.const α ()) x s = .ok () t
  simp only [EStateM.map, h, Function.const]

theorem discard_of_error {e : ε} (h : x s = .error e t) : discard x s = .error e t := by
  show EStateM.map (Function.const α ()) x s = .error e t
  simp only [EStateM.map, h]

theorem tryCatch_of_ok {a : α} (h : x s = .ok a t) (f : ε → EStateM ε σ α) :
    tryCatch x f s = .ok a t := by
  show EStateM.tryCatch x f s = .ok a t
  delta EStateM.tryCatch
  simp only [h]

theorem tryCatch_of_error {e : ε} (h : x s = .error e t) (f : ε → EStateM ε σ α) :
    tryCatch x f s = f e t := by
  show EStateM.tryCatch x f s = f e t
  delta EStateM.tryCatch
  simp only [h]
  rfl

/-- The state that a computation leaves, with a result or without one. -/
def after (x : EStateM ε σ α) (s : σ) : σ :=
  match x s with
  | .ok _ t => t
  | .error _ t => t

theorem after_of_ok {a : α} (h : x s = .ok a t) : after x s = t := by
  simp only [after, h]

theorem after_of_error {e : ε} (h : x s = .error e t) : after x s = t := by
  simp only [after, h]

def exit? (x : EStateM ε σ α) (s : σ) : Option ε :=
  match x s with
  | .ok .. => none
  | .error e _ => some e

theorem exit?_of_ok {a : α} (h : x s = .ok a t) : exit? x s = none := by
  simp only [exit?, h]

theorem exit?_of_error {e : ε} (h : x s = .error e t) : exit? x s = some e := by
  simp only [exit?, h]

def result? (x : EStateM ε σ α) (s : σ) : Option α :=
  match x s with
  | .ok a _ => some a
  | .error .. => none

theorem ok_of_result? {a : α} (h : result? x s = some a) : x s = .ok a (after x s) := by
  cases hx : x s with
  | ok b t =>
    rw [result?, hx] at h
    cases h
    rw [after_of_ok hx]
  | error e t =>
    rw [result?, hx] at h
    cases h

theorem after_discard (x : EStateM ε σ α) (s : σ) : after (discard x) s = after x s := by
  cases h : x s with
  | ok a t => rw [after_of_ok h, after_of_ok (discard_of_ok h)]
  | error e t => rw [after_of_error h, after_of_error (discard_of_error h)]

theorem related_after_bind {R : σ → σ → Prop} {f : α → EStateM ε σ β} (hrefl : ∀ t, R t t)
    (hf : ∀ a t, x s = .ok a t → R t (after (f a) t)) : R (after x s) (after (x >>= f) s) := by
  cases h : x s with
  | ok a t =>
    rw [after_of_ok h, after, bind_of_ok h]
    exact hf a t h
  | error e t =>
    rw [after_of_error h, after_of_error (bind_of_error h f)]
    exact hrefl t

section

variable {R : σ → σ → Prop} [IsTrans σ R]

theorem related_bind {f : α → EStateM ε σ β} (hx : R s (after x s))
    (hf : ∀ a t, x s = .ok a t → R t (after (f a) t)) : R s (after (x >>= f) s) := by
  cases h : x s with
  | ok a t =>
    rw [after_of_ok h] at hx
    rw [after, bind_of_ok h]
    exact IsTrans.trans _ _ _ hx (hf a t h)
  | error e t =>
    rw [after_of_error h] at hx
    rwa [after_of_error (bind_of_error h f)]

theorem related_tryCatch {f : ε → EStateM ε σ α} (hx : R s (after x s))
    (hf : ∀ e t, x s = .error e t → R t (after (f e) t)) : R s (after (tryCatch x f) s) := by
  cases h : x s with
  | ok a t =>
    rw [after_of_ok h] at hx
    rwa [after_of_ok (tryCatch_of_ok h f)]
  | error e t =>
    rw [after_of_error h] at hx
    rw [after, tryCatch_of_error h]
    exact IsTrans.trans _ _ _ hx (hf e t h)

end

end Fable.Runs

namespace Fable.Play

variable {α : Type} {c : Store.Change α} {g : Game} {s : Store}

theorem onStore_of_ok {a : α} (h : c g.store = .ok a s) :
    onStore c g = .ok a { g with store := s } := by
  simp only [onStore, h]

theorem onStore_of_error {f : Fault} (h : c g.store = .error f s) :
    onStore c g = .error (.fault f) { g with store := s } := by
  simp only [onStore, h]

/-- At most one stamp is given to a value that has just been made. -/
theorem exists_fresh_eq (v : Value) :
    ∃ (n : Nat) (f : Nat → Value), fresh v = newStamps n >>= fun stamp ↦ pure (f stamp) := by
  cases hv : v with
  | nan | list | dict | command | outcome => exact ⟨1, _, rfl⟩
  | _ => exact ⟨0, fun _ ↦ v, by rw [hv]; rfl⟩

end Fable.Play
