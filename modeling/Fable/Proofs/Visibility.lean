import Fable.Game.State
import Fable.Proofs.Calls

namespace Fable

namespace Store

variable {s : Store} {x l : Value}

/-- The object is in something open or transparent that is itself in nothing. -/
def Exposed (s : Store) (x : Value) : Prop :=
  (s.parent x).isNone = false ∧ (s.parent (s.parent x)).isNone ∧ s.showsInside (s.parent x)

instance (s : Store) (x : Value) : Decidable (s.Exposed x) :=
  inferInstanceAs (Decidable (_ ∧ _ ∧ _))

theorem visible_iff : s.visible x l ↔ (s.parent x).isNone = false ∧ (Value.same (s.parent x) l ∨
    Value.same (s.parent (s.parent x)) l ∧ s.showsInside (s.parent x)) := by
  simp only [visible]
  cases (s.parent x).isNone <;> cases Value.same (s.parent x) l <;> simp

theorem visible_none_iff (hl : l.isNone) : s.visible x l ↔ s.Exposed x := by
  obtain rfl := Value.eq_none_of_isNone hl
  rw [visible_iff, Value.same_none, Value.same_none, Exposed]
  cases (s.parent x).isNone <;> simp

theorem held_of_isNone (hs : s.Nested) (hx : x.isText) (hl : l.isNone) : s.held x l = false := by
  obtain rfl := Value.eq_none_of_isNone hl
  rw [held, List.any_eq_false]
  intro v hv
  rw [Value.same_none, ((hs.mem_ancestors_iff hx).1 hv).1]
  exact Bool.false_ne_true

/-- One or two steps lead from what is visible to the place from which it is. -/
theorem Nested.held_of_visible (hs : s.Nested) (hx : x.isText) (hl : l.isNone = false)
    (h : s.visible x l) : s.held x l := by
  obtain ⟨hparent, hsame | ⟨hsame, -⟩⟩ := visible_iff.1 h
  · exact List.any_eq_true.2 ⟨s.parent x, (hs.mem_ancestors_iff hx).2 ⟨hparent, 0, rfl⟩, hsame⟩
  · have houter := Value.isNone_eq_false_of_same hsame hl
    exact List.any_eq_true.2 ⟨_, (hs.mem_ancestors_iff hx).2 ⟨houter, 1, rfl⟩, hsame⟩

theorem Nested.held_or_exposed (hs : s.Nested) (hx : x.isText) (h : s.visible x l) :
    s.held x l ∨ l.isNone ∧ s.Exposed x := by
  cases hl : l.isNone with
  | false => exact .inl (hs.held_of_visible hx hl h)
  | true => exact .inr ⟨rfl, (visible_none_iff hl).1 h⟩

theorem Nested.visible_held_iff (hs : s.Nested) (hx : x.isText) :
    (s.visible x l → s.held x l) ↔ ¬ (l.isNone ∧ s.Exposed x) := by
  constructor
  · rintro himp ⟨hl, hexposed⟩
    have hheld := himp ((visible_none_iff hl).2 hexposed)
    rw [held_of_isNone hs hx hl] at hheld
    cases hheld
  · exact fun hno h ↦ (hs.held_or_exposed hx h).resolve_right hno

end Store

namespace Game

variable {g : Game} {x : Value}

/-- What is visible from a place is inside it, and what is in scope is inside the room or held by
the winner, but for what is exposed while the place is none. -/
theorem scope_inside_iff (hr : g.store.Reachable) (hx : x.isText) :
    (∀ l, (g.store.visible x l → g.store.held x l) ↔ ¬ (l.isNone ∧ g.store.Exposed x)) ∧
      ((g.inScope x → g.store.held x (g.global "HERE") ∨ g.store.held x (g.global "WINNER")) ↔
        ¬ (((g.global "HERE").isNone ∨ (g.global "WINNER").isNone) ∧ g.store.Exposed x ∧
          g.store.held x (g.global "HERE") = false ∧
            g.store.held x (g.global "WINNER") = false)) := by
  refine ⟨fun l ↦ hr.nested.visible_held_iff hx, ?_⟩
  rw [inScope, Bool.or_eq_true]
  constructor
  · rintro himp ⟨hnone, hexposed, hhere, hwinner⟩
    have hscope := hnone.imp (fun h ↦ (Store.visible_none_iff h).2 hexposed)
      fun h ↦ (Store.visible_none_iff h).2 hexposed
    simpa [hhere, hwinner] using himp hscope
  · intro hno hscope
    by_contra hout
    rw [not_or, Bool.not_eq_true, Bool.not_eq_true] at hout
    rcases hscope with h | h
    · obtain hheld | ⟨hnone, hexposed⟩ := hr.nested.held_or_exposed hx h
      · rw [hout.1] at hheld
        cases hheld
      · exact hno ⟨.inl hnone, hexposed, hout⟩
    · obtain hheld | ⟨hnone, hexposed⟩ := hr.nested.held_or_exposed hx h
      · rw [hout.2] at hheld
        cases hheld
      · exact hno ⟨.inr hnone, hexposed, hout⟩

def unenteredCalls : List Store.Call := [
  .define (.text "BOX") { flags := .list [.text "OPENBIT"] },
  .define (.text "COIN") { parent := .text "BOX" },
  .define (.text "PLAYER") {}]

def unentered : Game where
  store := .history unenteredCalls
  globals := reserved (.text "PLAYER") (.int 100)

theorem reachable_unentered : unentered.store.Reachable :=
  Store.reachable_history (by decide +kernel)

/-- The coin is in scope while the player is nowhere and does not hold it. -/
theorem coin_in_scope_nowhere :
    unentered.store.visible (.text "COIN") .none = true ∧
      unentered.store.held (.text "COIN") .none = false ∧
      (unentered.global "HERE").isNone = true ∧ unentered.inScope (.text "COIN") = true ∧
      unentered.store.held (.text "COIN") (unentered.global "WINNER") = false := by
  decide +kernel

theorem coin_visible_from_box :
    unentered.store.Reachable ∧ (Value.text "COIN").isText ∧
      unentered.store.visible (.text "COIN") (.text "BOX") = true ∧
      unentered.store.held (.text "COIN") (.text "BOX") = true := by
  have h := (scope_inside_iff (x := .text "COIN") reachable_unentered rfl).1 (.text "BOX")
  have hvisible : unentered.store.visible (.text "COIN") (.text "BOX") = true := by decide +kernel
  exact ⟨reachable_unentered, rfl, hvisible, h.2 (by simp [Value.isNone]) hvisible⟩

end Game

end Fable
