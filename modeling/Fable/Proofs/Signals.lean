import Fable.Proofs.Telling

namespace Fable

def Game.Unsignalled (_ : Game) (e : Option Exit) (_ : Game) : Prop := ∀ s, e ≠ some (.signal s)

instance : Game.Rule Game.Unsignalled := ⟨fun _ ↦ nofun, fun _ _ ↦ nofun, fun _ h ↦ h⟩

namespace Play

open Runs Game

variable {α : Type}

namespace Obeys

theorem ne_signal {p : Play α} (hp : Obeys Unsignalled p) {g h : Game} {e : Exit}
    (hrun : p g = .error e h) (s : Signal) : e ≠ .signal s := by
  have hs := hp g s
  rw [exit?_of_error hrun] at hs
  exact fun he ↦ hs (congrArg some he)

theorem modifies (f : Game → Game) : Obeys Unsignalled (modify f) := fun _ ↦ nofun

theorem endGame (r : Reason) : Obeys Unsignalled (Play.endGame r : Play α) := fun _ ↦ nofun

theorem setGlobal (name : String) (v : Value) :
    Obeys Unsignalled (Play.setGlobal name v) := .modifies _

theorem onStore (c : Store.Change α) : Obeys Unsignalled (Play.onStore c) := by
  intro g
  cases hc : c g.store with
  | ok a t =>
    rw [exit?_of_ok (onStore_of_ok hc)]
    nofun
  | error f t =>
    rw [exit?_of_error (onStore_of_error hc)]
    nofun

theorem describeRoom (handled : Bool) : Obeys Unsignalled (Play.describeRoom handled) := by
  refine .get_bind fun g ↦ ?_
  have hrest : Obeys Unsignalled (do
      Play.describeContents (g.global "HERE")
      Play.onStore (Store.setFlag (g.global "HERE") touchedFlag)) :=
    .bind (.describeContents _) fun _ ↦ .onStore _
  refine .ite (.bind (.property _ _ _) fun text ↦ ?_) hrest
  exact .ite (.bind (.tell _) fun _ ↦ hrest) hrest

theorem die (message : Value) : Obeys Unsignalled (Play.die message : Play α) := by
  refine .bind (.write _) fun _ ↦ .bind (.write _) fun _ ↦ .get_bind fun _ ↦
    .bind (.lift _) fun _ ↦ ?_
  refine .bind (.write _) fun _ ↦ .bind (.setGlobal _ _) fun _ ↦ .bind (.modifies _) fun _ ↦ ?_
  exact .bind (.note _) fun _ ↦ .endGame _

theorem win : Obeys Unsignalled (Play.win : Play α) := by
  refine .get_bind fun _ ↦ .bind (.lift _) fun _ ↦ .bind (.lift _) fun _ ↦
    .bind (.write _) fun _ ↦ ?_
  refine .bind (.setGlobal _ _) fun _ ↦ .bind (.modifies _) fun _ ↦ .get_bind fun _ ↦ ?_
  exact .bind (.note _) fun _ ↦ .endGame _

theorem arrive (room : Value) : Obeys Unsignalled (Play.arrive room) := by
  refine .get_bind fun g ↦ ?_
  have hwin : Obeys Unsignalled (do
      if ((← MonadState.get).store.property room (.text "VICTORY") .none).truthy
        then Play.win : Play Unit) :=
    .get_bind fun _ ↦ .ite .win (.pure ())
  exact .ite (.bind (.die _) fun _ ↦ hwin) hwin

/-- A signal from inside a routine becomes its value. -/
theorem boundary (p : Play Value) : Obeys Unsignalled (Play.boundary p) := by
  intro g s
  cases hp : p g with
  | ok v k =>
    rw [Play.boundary, exit?_of_ok (tryCatch_of_ok hp _)]
    rintro ⟨⟩
  | error e k =>
    rw [Play.boundary, exit?, tryCatch_of_error hp]
    cases e <;> rintro ⟨⟩

end Obeys

end Play

end Fable
