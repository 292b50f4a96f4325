import Fable.Proofs.Telling

namespace Fable

namespace Game

structure Veil where
  strict : Value
  seed : Value
  diagnostics : List String
  generator : Twister
  written : Array Value
  log : Array Event

def veil (g : Game) : Veil :=
  ⟨g.config.strict, g.config.seed, g.diagnostics, g.generator, g.written, g.log⟩

def veiled (g : Game) (v : Veil) : Game :=
  { g with
    config := { g.config with strict := v.strict, seed := v.seed }
    diagnostics := v.diagnostics
    generator := v.generator
    written := v.written
    log := v.log }

end Game

namespace Play

variable {α β : Type}

def refuse : Play Unit := do
  tell [← onGenerator (Draw.pickOne (.list StandardVerb.refusals)), newline]

def reward (id : Value) : Play Unit := do
  discard <| score ((← get).store.property id (.text "VALUE") (.int 0))

def setOut : Play Value := do
  let dest ← destination
  if dest.isNone then
    tell [.text "You can't go that way.", newline]
    returnFalse
  demand dest
  if !(← get).store.isDefined dest then
    tell [dest, newline]
    returnFalse
  tell [desc, dest, newline]
  pure dest

theorem walk_eq (exec : Exec) : walk exec = (do
    let dest ← setOut
    let handled ← goTo exec dest
    if !Value.alike ((← get).global "HERE") dest then returnFalse
    describeRoom handled.truthy
    arrive dest
    returnTrue) := by
  unfold walk setOut
  rw [bind_assoc]
  refine bind_congr fun dest ↦ ?_
  split
  · rfl
  rw [bind_assoc]
  refine bind_congr fun _ ↦ ?_
  rw [bind_assoc]
  refine bind_congr fun g ↦ ?_
  split
  · dsimp only
    rw [bind_assoc]
    rfl
  · rw [bind_assoc]
    refine bind_congr fun _ ↦ ?_
    rw [pure_bind]

/-- What verbs are put together from, unless they call routines or end the game. -/
inductive Verbal : {α : Type} → Play α → Prop
  | pure {α : Type} (a : α) : Verbal (Pure.pure a : Play α)
  | fail {α : Type} (f : Fault) : Verbal (Play.fail f : Play α)
  | signal {α : Type} (s : Signal) : Verbal (throw (.signal s) : Play α)
  /-- What comes after the exit of a routine is never reached, whatever it is. -/
  | signal_bind {α β : Type} (s : Signal) (f : α → Play β) :
      Verbal ((throw (.signal s) : Play α) >>= f)
  | bind {α β : Type} {p : Play α} {f : α → Play β} (hp : Verbal p) (hf : ∀ a, Verbal (f a)) :
      Verbal (p >>= f)
  | look {β : Type} {f : Game → Play β} (hsame : ∀ g v, f (g.veiled v) = f g)
      (hf : ∀ g, Verbal (f g)) :
      Verbal (get >>= f)
  | newStamps (n : Nat) : Verbal (Play.newStamps n)
  | tell (tokens : List Value) : Verbal (Play.tell tokens)
  | move (id into : Value) : Verbal (Play.move id into)
  | setFlag (id flag : Value) : Verbal (onStore (Store.setFlag id flag))
  | clearFlag (id flag : Value) : Verbal (onStore (Store.clearFlag id flag))
  | refuse : Verbal Play.refuse
  | reward (id : Value) : Verbal (Play.reward id)

namespace Verbal

theorem ite {c : Prop} [Decidable c] {p q : Play α} (hp : Verbal p) (hq : Verbal q) :
    Verbal (if c then p else q) := by
  split
  · exact hp
  · exact hq

theorem forM {xs : List α} {f : α → Play Unit} (hf : ∀ x, Verbal (f x)) : Verbal (xs.forM f) := by
  induction xs with
  | nil => exact .pure ()
  | cons x xs ih => exact .bind (hf x) fun _ ↦ ih

theorem lift (e : Except Fault α) : Verbal (Play.lift e) := by
  cases e with
  | ok a => exact .pure a
  | error f => exact .fail f

theorem demand (v : Value) : Verbal (Play.demand v) := .ite (.pure ()) (.fail _)

theorem fresh (v : Value) : Verbal (Play.fresh v) := by
  obtain ⟨n, f, hv⟩ := exists_fresh_eq v
  rw [hv]
  exact .bind (.newStamps n) fun _ ↦ .pure _

theorem property (id key default : Value) : Verbal (Play.property id key default) := by
  refine .bind (.demand id) fun _ ↦ .look (fun _ _ ↦ rfl) fun g ↦ ?_
  split
  · exact .pure default
  · have hrest : Verbal (do Pure.pure ((← get).store.property id key default) : Play Value) :=
      .look (fun _ _ ↦ rfl) fun _ ↦ .pure _
    exact .ite (.bind (.demand key) fun _ ↦ hrest) hrest

theorem inScope (id : Value) : Verbal (Play.inScope id) :=
  .bind (.demand id) fun _ ↦ .look (fun _ _ ↦ rfl) fun _ ↦ .pure _

theorem weight (container : Value) : Verbal (Play.weight container) :=
  .bind (.demand container) fun _ ↦ .look (fun _ _ ↦ rfl) fun _ ↦ .bind (.lift _) .fresh

theorem tooHeavy (winner direct : Value) : Verbal (Play.tooHeavy winner direct) := by
  refine .bind (.weight winner) fun _ ↦ .look (fun _ _ ↦ rfl) fun _ ↦ .bind (.lift _) fun _ ↦ ?_
  exact .look (fun _ _ ↦ rfl) fun _ ↦ .look (fun _ _ ↦ rfl) fun _ ↦ .lift _

theorem destination : Verbal Play.destination :=
  .look (fun _ _ ↦ rfl) fun _ ↦ .ite (.look (fun _ _ ↦ rfl) fun _ ↦ .property _ _ _) (.pure _)

theorem forEach (container : Value) {act : Value → Play Unit} (h : ∀ x, Verbal (act x)) :
    Verbal (Play.forEach container act) :=
  .look (fun _ _ ↦ rfl) fun _ ↦ .bind (.forM h) fun _ ↦ .lift _

theorem listInside (container : Value) : Verbal (Play.listInside container) :=
  .bind (.tell _) fun _ ↦ .forEach container fun _ ↦ .tell _

theorem listItself (id : Value) : Verbal (Play.listItself id) :=
  .look (fun _ _ ↦ rfl) fun _ ↦ .ite (.tell _) (.tell _)

theorem listObject (id : Value) : Verbal (Play.listObject id) := by
  refine .look (fun _ _ ↦ rfl) fun g ↦ .ite ?_ (.pure ())
  have hrest :
      Verbal (if g.store.showsInside id && !(g.store.first id).isNone then Play.listInside id
      else Pure.pure ()) := .ite (.listInside id) (.pure ())
  exact .ite (.bind (.listItself id) fun _ ↦ hrest) hrest

theorem describeContents (container : Value) : Verbal (Play.describeContents container) :=
  .bind (.demand container) fun _ ↦ .forEach container .listObject

theorem describeRoom (handled : Bool) : Verbal (Play.describeRoom handled) := by
  refine .look (fun _ _ ↦ rfl) fun g ↦ ?_
  have hrest : Verbal (do
      Play.describeContents (g.global "HERE")
      onStore (Store.setFlag (g.global "HERE") touchedFlag)) :=
    .bind (.describeContents _) fun _ ↦ .setFlag _ _
  refine .ite (.bind (.property _ _ _) fun text ↦ ?_) hrest
  exact .ite (.bind (.tell _) fun _ ↦ hrest) hrest

theorem revealed (xs : List Value) : Verbal (Play.revealed xs) := by
  fun_induction Play.revealed xs with
  | case1 => exact .pure ()
  | case2 x => exact .tell _
  | case3 x xs _ ih => exact .bind (.tell _) fun _ ↦ .bind (.tell _) fun _ ↦ ih

theorem directInScope (verb : String) : Verbal (Play.directInScope verb) := by
  refine .look (fun _ _ ↦ rfl) fun g ↦ .ite (.bind (.tell _) fun _ ↦ .signal_bind _ _) ?_
  exact .bind (.inScope _) fun _ ↦ .ite (.pure _) (.bind (.tell _) fun _ ↦ .signal _)

theorem directContainer (verb : String) : Verbal (Play.directContainer verb) :=
  .bind (.directInScope verb) fun _ ↦ .look (fun _ _ ↦ rfl) fun _ ↦
    .ite (.pure _) (.bind (.tell _) fun _ ↦ .signal _)

theorem examine : Verbal Play.examine := by
  refine .bind (.directInScope _) fun x ↦ .look (fun _ _ ↦ rfl) fun g ↦ .ite ?_ (.ite ?_ ?_)
  · exact .bind (.tell _) fun _ ↦ .signal _
  · exact .bind (.describeContents _) fun _ ↦ .signal _
  · exact .bind (.tell _) fun _ ↦ .signal _

theorem take : Verbal Play.take := by
  refine .bind (.directInScope _) fun x ↦ .look (fun _ _ ↦ rfl) fun _ ↦
    .look (fun _ _ ↦ rfl) fun _ ↦ .ite ?_ ?_
  · exact .bind (.tell _) fun _ ↦ .signal_bind _ _
  refine .look (fun _ _ ↦ rfl) fun _ ↦ .ite ?_ ?_
  · rw [← bind_assoc]
    exact .bind .refuse fun _ ↦ .signal_bind _ _
  refine .bind (.tooHeavy _ _) fun _ ↦ .ite (.bind (.tell _) fun _ ↦ .signal_bind _ _) ?_
  refine .look (fun _ _ ↦ rfl) fun _ ↦ .bind (.move _ _) fun _ ↦ ?_
  refine .ite (.bind (.tell _) fun _ ↦ .signal_bind _ _)
    (.bind (.setFlag _ _) fun _ ↦ .bind (.tell _) fun _ ↦ ?_)
  refine .ite ?_ (.signal _)
  rw [← bind_assoc]
  exact .bind (.reward x) fun _ ↦ .signal _

theorem drop : Verbal Play.drop := by
  refine .look (fun _ _ ↦ rfl) fun _ ↦ .look (fun _ _ ↦ rfl) fun _ ↦ .bind (.demand _) fun _ ↦ ?_
  refine .look (fun _ _ ↦ rfl) fun _ ↦ .ite (.bind (.tell _) fun _ ↦ .signal_bind _ _) ?_
  refine .look (fun _ _ ↦ rfl) fun _ ↦ .bind (.move _ _) fun _ ↦ ?_
  exact .ite (.bind (.tell _) fun _ ↦ .signal_bind _ _) (.bind (.tell _) fun _ ↦ .signal _)

theorem inventory : Verbal Play.inventory := by
  refine .look (fun _ _ ↦ rfl) fun _ ↦ .bind (.demand _) fun _ ↦
    .look (fun _ _ ↦ rfl) fun _ ↦ .ite ?_ ?_
  · exact .bind (.tell _) fun _ ↦ .signal_bind _ _
  · exact .bind (.tell _) fun _ ↦ .bind (.forEach _ fun _ ↦ .tell _) fun _ ↦ .signal _

theorem openUp : Verbal Play.openUp := by
  refine .bind (.directContainer _) fun x ↦ .look (fun _ _ ↦ rfl) fun _ ↦ .ite ?_ ?_
  · exact .bind (.tell _) fun _ ↦ .signal_bind _ _
  refine .bind (.setFlag _ _) fun _ ↦ .look (fun _ _ ↦ rfl) fun _ ↦
    .look (fun _ _ ↦ rfl) fun _ ↦ .ite ?_ ?_
  · exact .bind (.tell _) fun _ ↦ .signal_bind _ _
  · exact .bind (.tell _) fun _ ↦ .bind (.revealed _) fun _ ↦ .bind (.tell _) fun _ ↦ .signal _

theorem closeUp : Verbal Play.closeUp := by
  refine .bind (.directContainer _) fun x ↦ .look (fun _ _ ↦ rfl) fun _ ↦ .ite ?_ ?_
  · exact .bind (.tell _) fun _ ↦ .signal_bind _ _
  · exact .bind (.clearFlag _ _) fun _ ↦ .bind (.tell _) fun _ ↦ .signal _

theorem setOut : Verbal Play.setOut := by
  refine .bind .destination fun dest ↦ .ite (.bind (.tell _) fun _ ↦ .signal_bind _ _) ?_
  refine .bind (.demand dest) fun _ ↦ .look (fun _ _ ↦ rfl) fun g ↦ ?_
  exact .ite (.bind (.tell _) fun _ ↦ .signal_bind _ _) (.bind (.tell _) fun _ ↦ .pure _)

theorem showScore : Verbal Play.showScore :=
  .look (fun _ _ ↦ rfl) fun _ ↦ .bind (.tell _) fun _ ↦ .signal _

end Verbal

end Play

end Fable
