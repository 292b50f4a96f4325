import Fable.Library.Verbs
import Fable.Proofs.Runs

namespace Fable

/-- From one game to the other something may have been told, reported, drawn or stamped, and that is
all. -/
structure Game.Told (g h : Game) : Prop where
  config : h.config = g.config
  store : h.store = g.store
  globals : h.globals = g.globals
  verbs : h.verbs = g.verbs
  routines : h.routines = g.routines
  dead : h.dead = g.dead
  won : h.won = g.won

def Game.wrote (g : Game) (vs : List Value) : Game :=
  { g with written := vs.foldl Array.push g.written }

theorem Game.toList_wrote (g : Game) (vs : List Value) :
    (g.wrote vs).written.toList = g.written.toList ++ vs := by
  rw [wrote, List.foldl_push_eq_append', Array.toList_append]

def Game.reported (g : Game) (f : Fault) : Game :=
  { g with log := g.log.push (.authoring f.text), diagnostics := g.diagnostics ++ [f.text] }

theorem Game.Told.refl (g : Game) : g.Told g := ⟨rfl, rfl, rfl, rfl, rfl, rfl, rfl⟩

theorem Game.told_wrote (g : Game) (vs : List Value) : g.Told (g.wrote vs) :=
  ⟨rfl, rfl, rfl, rfl, rfl, rfl, rfl⟩

theorem Game.Told.trans {g h k : Game} (hg : g.Told h) (hh : h.Told k) : g.Told k where
  config := hh.config.trans hg.config
  store := hh.store.trans hg.store
  globals := hh.globals.trans hg.globals
  verbs := hh.verbs.trans hg.verbs
  routines := hh.routines.trans hg.routines
  dead := hh.dead.trans hg.dead
  won := hh.won.trans hg.won

instance : IsTrans Game Game.Told := ⟨fun _ _ _ ↦ Game.Told.trans⟩

theorem Game.Told.global {g h : Game} (hg : g.Told h) (name : String) :
    h.global name = g.global name := by
  rw [Game.global, Game.global, hg.globals]

theorem Game.Told.inScope {g h : Game} (hg : g.Told h) (x : Value) : h.inScope x = g.inScope x := by
  rw [Game.inScope, Game.inScope, hg.store, hg.global, hg.global]

structure Game.Silent (g h : Game) : Prop extends g.Told h where
  written : h.written = g.written
  prompts : h.prompts = g.prompts

theorem Game.Silent.refl (g : Game) : g.Silent g := ⟨.refl g, rfl, rfl⟩

/-- A rule for the game before, the exit if there is one, and the game after: it holds if nothing is
written or changed and if something fails, and from one to the next. -/
class Game.Law (R : Game → Option Exit → Game → Prop) : Prop where
  silent {g h : Game} : g.Silent h → R g none h
  failed (g : Game) (f : Fault) : R g (some (.fault f)) g
  trans {g h k : Game} {e : Option Exit} : R g none h → R h e k → R g e k

/-- A rule that holds also if something is told, whatever is written then. -/
class Game.Rule (R : Game → Option Exit → Game → Prop) : Prop where
  told {g h : Game} : g.Told h → R g none h
  failed (g : Game) (f : Fault) : R g (some (.fault f)) g
  trans {g h k : Game} {e : Option Exit} : R g none h → R h e k → R g e k

instance {R : Game → Option Exit → Game → Prop} [Game.Rule R] : Game.Law R where
  silent h := Game.Rule.told h.toTold
  failed := Game.Rule.failed
  trans := Game.Rule.trans

class Game.Leaves (R : Game → Option Exit → Game → Prop) : Prop where
  signal (g : Game) (s : Signal) : R g (some (.signal s)) g

abbrev Game.Tells (g : Game) (_ : Option Exit) (h : Game) : Prop := g.Told h

instance : Game.Rule Game.Tells := ⟨id, fun g _ ↦ .refl g, Game.Told.trans⟩

instance : Game.Leaves Game.Tells := ⟨fun g _ ↦ .refl g⟩

namespace Play

open Runs

variable {α β : Type}

/-- However the computation runs, the rule holds. -/
def Obeys (R : Game → Option Exit → Game → Prop) (p : Play α) : Prop :=
  ∀ g : Game, R g (exit? p g) (after p g)

abbrev Quiet (p : Play α) : Prop := Obeys Game.Tells p

namespace Obeys

variable {R : Game → Option Exit → Game → Prop}

theorem ite {c : Prop} [Decidable c] {p q : Play α} (hp : Obeys R p) (hq : Obeys R q) :
    Obeys R (if c then p else q) := by
  split
  · exact hp
  · exact hq

section

variable [Game.Law R]

theorem of_silent {p : Play α} (hp : ∀ g, exit? p g = none ∧ g.Silent (after p g)) : Obeys R p := by
  intro g
  rw [(hp g).1]
  exact Game.Law.silent (hp g).2

theorem pure (a : α) : Obeys R (pure a) := of_silent fun g ↦ ⟨rfl, .refl g⟩

theorem get : Obeys R get := of_silent fun g ↦ ⟨rfl, .refl g⟩

theorem fail (f : Fault) : Obeys R (Play.fail f : Play α) := fun g ↦ Game.Law.failed g f

theorem bind {p : Play α} {f : α → Play β} (hp : Obeys R p) (hf : ∀ a, Obeys R (f a)) :
    Obeys R (p >>= f) := by
  intro g
  have hg := hp g
  cases hrun : p g with
  | ok a k =>
    rw [exit?_of_ok hrun, after_of_ok hrun] at hg
    rw [exit?, after, bind_of_ok hrun]
    exact Game.Law.trans hg (hf a k)
  | error e k =>
    rw [exit?_of_error hrun, after_of_error hrun] at hg
    rwa [exit?_of_error (bind_of_error hrun f), after_of_error (bind_of_error hrun f)]

theorem get_bind {f : Game → Play β} (hf : ∀ g, Obeys R (f g)) :
    Obeys R (Bind.bind MonadState.get f) :=
  .bind .get hf

theorem forM_of_mem {xs : List α} {f : α → Play Unit} (hf : ∀ x ∈ xs, Obeys R (f x)) :
    Obeys R (xs.forM f) := by
  induction xs with
  | nil => exact .pure ()
  | cons x xs ih =>
    exact .bind (hf x List.mem_cons_self) fun _ ↦ ih fun y hy ↦ hf y (List.mem_cons_of_mem _ hy)

theorem forM {xs : List α} {f : α → Play Unit} (hf : ∀ x, Obeys R (f x)) : Obeys R (xs.forM f) :=
  .forM_of_mem fun x _ ↦ hf x

theorem lift (e : Except Fault α) : Obeys R (Play.lift e) := by
  cases e with
  | ok a => exact .pure a
  | error f => exact .fail f

theorem demand (v : Value) : Obeys R (Play.demand v) :=
  .ite (.pure ()) (.fail _)

theorem newStamps (n : Nat) : Obeys R (Play.newStamps n) :=
  of_silent fun _ ↦ ⟨rfl, ⟨rfl, rfl, rfl, rfl, rfl, rfl, rfl⟩, rfl, rfl⟩

theorem note (e : Event) : Obeys R (Play.note e) :=
  of_silent fun _ ↦ ⟨rfl, ⟨rfl, rfl, rfl, rfl, rfl, rfl, rfl⟩, rfl, rfl⟩

theorem freshCopy (v : Value) : Obeys R (Play.freshCopy v) :=
  of_silent fun _ ↦ ⟨rfl, ⟨rfl, rfl, rfl, rfl, rfl, rfl, rfl⟩, rfl, rfl⟩

theorem fresh (v : Value) : Obeys R (Play.fresh v) := by
  obtain ⟨n, f, hv⟩ := exists_fresh_eq v
  rw [hv]
  exact .bind (.newStamps n) fun _ ↦ .pure _

theorem sum (v w : Value) : Obeys R (Play.sum v w) :=
  .bind (.lift _) .fresh

theorem onGenerator (d : Draw α) : Obeys R (Play.onGenerator d) := by
  intro g
  have ht (t : Twister) : g.Silent { g with generator := t } :=
    ⟨⟨rfl, rfl, rfl, rfl, rfl, rfl, rfl⟩, rfl, rfl⟩
  unfold exit? after Play.onGenerator
  cases d g.generator with
  | ok a t => exact Game.Law.silent (ht t)
  | error f t => exact Game.Law.trans (Game.Law.silent (ht t)) (Game.Law.failed _ f)

theorem report (f : Fault) : Obeys R (Play.report f) := by
  refine .get_bind fun g ↦ ?_
  have hrest : Obeys R (do
      Play.note (.authoring f.text)
      modify fun g ↦ { g with diagnostics := g.diagnostics ++ [f.text] }) :=
    .bind (.note _) fun _ ↦ of_silent fun _ ↦ ⟨rfl, ⟨rfl, rfl, rfl, rfl, rfl, rfl, rfl⟩, rfl, rfl⟩
  exact .ite (.bind (.fail f) fun _ ↦ hrest) hrest

theorem property (id key default : Value) : Obeys R (Play.property id key default) := by
  refine .bind (.demand id) fun _ ↦ .get_bind fun g ↦ ?_
  split
  · exact .pure default
  · have hrest :
        Obeys R (do Pure.pure ((← MonadState.get).store.property id key default) : Play Value) :=
      .get_bind fun _ ↦ .pure _
    exact .ite (.bind (.demand key) fun _ ↦ hrest) hrest

theorem inScope (id : Value) : Obeys R (Play.inScope id) :=
  .bind (.demand id) fun _ ↦ .get_bind fun _ ↦ .pure _

theorem weight (container : Value) : Obeys R (Play.weight container) :=
  .bind (.demand container) fun _ ↦ .get_bind fun _ ↦ .bind (.lift _) .fresh

theorem forEach (container : Value) {act : Value → Play Unit} (h : ∀ x, Obeys R (act x)) :
    Obeys R (Play.forEach container act) :=
  .get_bind fun _ ↦ .bind (.forM h) fun _ ↦ .lift _

theorem tooHeavy (winner direct : Value) : Obeys R (Play.tooHeavy winner direct) :=
  .bind (.weight winner) fun _ ↦ .get_bind fun _ ↦ .bind (.lift _) fun _ ↦
    .get_bind fun _ ↦ .get_bind fun _ ↦ .lift _

end

theorem of_told [Game.Rule R] {p : Play α} (hp : ∀ g, exit? p g = none ∧ g.Told (after p g)) :
    Obeys R p := by
  intro g
  rw [(hp g).1]
  exact Game.Rule.told (hp g).2

theorem write [Game.Rule R] (v : Value) : Obeys R (Play.write v) :=
  of_told fun _ ↦ ⟨rfl, rfl, rfl, rfl, rfl, rfl, rfl, rfl⟩

end Obeys

end Play

class Game.Speech (R : Game → Option Exit → Game → Prop) : Prop extends Game.Law R where
  tell (tokens : List Value) : Play.Obeys R (Play.tell tokens)

instance {R : Game → Option Exit → Game → Prop} [Game.Rule R] : Game.Speech R where
  tell tokens := by
    refine .get_bind fun g ↦ .bind (.forM .write) fun _ ↦ ?_
    split
    · exact .ite (.report _) (.fail _)
    · exact .pure ()

namespace Play

open Runs

variable {α β : Type}

namespace Obeys

variable {R : Game → Option Exit → Game → Prop}

section

variable [Game.Speech R]

theorem tell (tokens : List Value) : Obeys R (Play.tell tokens) := Game.Speech.tell tokens

theorem listInside (container : Value) : Obeys R (Play.listInside container) :=
  .bind (.tell _) fun _ ↦ .forEach container fun _ ↦ .tell _

theorem listItself (id : Value) : Obeys R (Play.listItself id) :=
  .get_bind fun _ ↦ .ite (.tell _) (.tell _)

theorem listObject (id : Value) : Obeys R (Play.listObject id) := by
  refine .get_bind fun g ↦ .ite ?_ (.pure ())
  have hrest :
      Obeys R (if g.store.showsInside id && !(g.store.first id).isNone then Play.listInside id
      else Pure.pure ()) := .ite (.listInside id) (.pure ())
  exact .ite (.bind (.listItself id) fun _ ↦ hrest) hrest

theorem describeContents (container : Value) : Obeys R (Play.describeContents container) :=
  .bind (.demand container) fun _ ↦ .forEach container .listObject

theorem revealed (xs : List Value) : Obeys R (Play.revealed xs) := by
  fun_induction Play.revealed xs with
  | case1 => exact .pure ()
  | case2 x => exact .tell _
  | case3 x xs _ ih => exact .bind (.tell _) fun _ ↦ .bind (.tell _) fun _ ↦ ih

end

section

variable [Game.Leaves R]

theorem returnTrue : Obeys R (Play.returnTrue : Play α) := fun g ↦ Game.Leaves.signal g _

-- What comes after the exit of a routine is never reached, whatever it is.
theorem returnTrue_bind (f : α → Play β) : Obeys R (Play.returnTrue >>= f) :=
  fun g ↦ Game.Leaves.signal g _

theorem returnFalse_bind (f : α → Play β) : Obeys R (Play.returnFalse >>= f) :=
  fun g ↦ Game.Leaves.signal g _

end

theorem directInScope [Game.Speech R] [Game.Leaves R] (verb : String) :
    Obeys R (Play.directInScope verb) := by
  refine .get_bind fun g ↦ ?_
  have hrest : Obeys R (do
      if ← Play.inScope (g.global "PRSO") then Pure.pure (g.global "PRSO")
      else
        Play.tell [.text "You can't see any such thing.", newline]
        Play.returnTrue : Play Value) :=
    .bind (.inScope _) fun _ ↦ .ite (.pure _) (.bind (.tell _) fun _ ↦ .returnTrue)
  exact .ite (.bind (.tell _) fun _ ↦ .returnTrue_bind _) hrest

end Obeys

theorem Quiet.told_of_ok {p : Play α} (hp : Quiet p) {g h : Game} {a : α} (hok : p g = .ok a h) :
    g.Told h := by
  have ht := hp g
  rwa [after_of_ok hok] at ht

variable {g : Game}

theorem demand_of_hashable {v : Value} (h : v.hashable) (g : Game) : demand v g = .ok () g := by
  rw [demand, if_pos h]
  rfl

theorem demand_of_not_hashable {v : Value} (h : ¬ v.hashable) (g : Game) :
    demand v g = .error (.fault .mismatch) g := by
  rw [demand, if_neg h]
  rfl

theorem of_demand {v : Value} {h : Game} (hrun : demand v g = .ok () h) : h = g := by
  by_cases hx : v.hashable
  · rw [demand_of_hashable hx] at hrun
    cases hrun
    rfl
  · rw [demand_of_not_hashable hx] at hrun
    cases hrun

theorem of_lift {e : Except Fault α} {r : α} {h : Game} (hrun : lift e g = .ok r h) : h = g := by
  cases e with
  | ok r =>
    cases hrun
    rfl
  | error f => cases hrun

theorem ok_of_lift {e : Except Fault α} {r : α} {h : Game} (hrun : lift e g = .ok r h) :
    e = .ok r := by
  cases e with
  | ok r =>
    cases hrun
    rfl
  | error f => cases hrun

theorem text_of_ok {v : Value} {t : String} (ht : g.store.text v = .ok t) : text v g = .ok t g := by
  rw [text, Runs.get_bind, ht]
  rfl

theorem text_of_error {v : Value} {f : Fault} (hf : g.store.text v = .error f) :
    text v g = .error (.fault f) g := by
  rw [text, Runs.get_bind, hf]
  rfl

theorem inScope_of_hashable {v : Value} (h : v.hashable) (g : Game) :
    inScope v g = .ok (g.inScope v) g := by
  rw [inScope, bind_of_ok (demand_of_hashable h g)]
  rfl

theorem verbTag_of_hashable {v : Value} (h : v.hashable) (g : Game) :
    verbTag v g = .ok (g.verbTag v) g := by
  rw [verbTag, bind_of_ok (demand_of_hashable h g)]
  rfl

theorem forM_write (vs : List Value) (g : Game) : vs.forM write g = .ok () (g.wrote vs) := by
  induction vs generalizing g with
  | nil => rfl
  | cons v vs ih => exact ih { g with written := g.written.push v }

theorem tell_of_render {tokens out : List Value}
    (h : Tell.render (voice g.store) 0 tokens = (out, none)) :
    tell tokens g = .ok () (g.wrote out) := by
  rw [tell, Runs.get_bind, h]
  exact bind_of_ok (forM_write out g) _

theorem report_of_relaxed (h : g.config.strict.truthy = false) (f : Fault) :
    report f g = .ok () (g.reported f) := by
  rw [report, Runs.get_bind, h]
  rfl

end Play

end Fable
