import Fable.Proofs.Deeds
import Fable.Script.Eval

namespace Fable

namespace Game

def OnlyVerbs (g : Game) : Prop :=
  ∀ name r, g.routines.find? name = some r → ∃ q v, r = .routine q ∧ q.body = .verb v

def asked (g : Game) (tag direct indirect : Value) : Game :=
  ((g.assign "PRSA" tag).assign "PRSO" direct).assign "PRSI" indirect

theorem globalOr_asked (g : Game) (tag direct indirect : Value) {k : String} (ha : k ≠ "PRSA")
    (hd : k ≠ "PRSO") (hi : k ≠ "PRSI") (default : Value) :
    (g.asked tag direct indirect).globalOr k default = g.globalOr k default := by
  simp only [asked, globalOr_assign, if_neg ha.symm, if_neg hd.symm, if_neg hi.symm]

theorem global_asked (g : Game) (tag direct indirect : Value) {k : String} (ha : k ≠ "PRSA")
    (hd : k ≠ "PRSO") (hi : k ≠ "PRSI") : (g.asked tag direct indirect).global k = g.global k :=
  globalOr_asked g tag direct indirect ha hd hi .none

theorem winner_asked (g : Game) (tag direct indirect : Value) :
    (g.asked tag direct indirect).global "WINNER" = g.global "WINNER" :=
  global_asked g tag direct indirect (by decide) (by decide) (by decide)

theorem here_asked (g : Game) (tag direct indirect : Value) :
    (g.asked tag direct indirect).global "HERE" = g.global "HERE" :=
  global_asked g tag direct indirect (by decide) (by decide) (by decide)

theorem direct_asked (g : Game) (tag direct indirect : Value) :
    (g.asked tag direct indirect).global "PRSO" = direct := by
  simp [asked, global_assign]

/-- What a command does, step by step. -/
inductive Step : Game → Game → Prop
  | tells {g h : Game} (ht : g.Told h) : Step g h
  | asks (g : Game) (tag direct indirect : Value) : Step g (g.asked tag direct indirect)
  /-- The object was touched before, or its value cannot be added to the score. -/
  | takes {g : Game} {x : Value} {s : Store} (hscope : g.inScope x)
      (htakeable : g.store.hasFlag x Play.takeableFlag)
      (hfree : Value.same (g.store.parent x) (g.global "WINNER") = false)
      (hmove : Store.move x (g.global "WINNER") g.store = .ok () s)
      (hscore : g.store.hasFlag x Play.touchedFlag ∨ ∃ f, Value.add (g.globalOr "SCORE" (.int 0))
        ((s.update x (·.setFlag Play.touchedFlag)).property x (.text "VALUE") (.int 0)) =
        .error f) :
      Step g { g with store := s.update x (·.setFlag Play.touchedFlag) }
  | takesFirst {g : Game} {x total : Value} {s : Store} (hscope : g.inScope x)
      (htakeable : g.store.hasFlag x Play.takeableFlag)
      (hfree : Value.same (g.store.parent x) (g.global "WINNER") = false)
      (hmove : Store.move x (g.global "WINNER") g.store = .ok () s)
      (huntouched : g.store.hasFlag x Play.touchedFlag = false)
      (htotal : ∃ h k, Play.sum (g.globalOr "SCORE" (.int 0))
        ((s.update x (·.setFlag Play.touchedFlag)).property x (.text "VALUE") (.int 0)) h =
        .ok total k) :
      Step g { g.assign "SCORE" total with store := s.update x (·.setFlag Play.touchedFlag) }
  | drops {g : Game} {x : Value} {s : Store}
      (hheld : Value.same (g.store.parent x) (g.global "WINNER"))
      (hmove : Store.move x (g.global "HERE") g.store = .ok () s) : Step g { g with store := s }
  | opens {g : Game} {x : Value} {s : Store} (hscope : g.inScope x)
      (hcontainer : g.store.hasFlag x Play.containerFlag)
      (hset : Store.setFlag x Store.openFlag g.store = .ok () s) : Step g { g with store := s }
  | closes {g : Game} {x : Value} {s : Store} (hscope : g.inScope x)
      (hcontainer : g.store.hasFlag x Play.containerFlag)
      (hclear : Store.clearFlag x Store.openFlag g.store = .ok () s) : Step g { g with store := s }
  | walks {g : Game} {room : Value} {s : Store} (hroom : g.store.isDefined room)
      (hmove : Store.move (g.global "WINNER") room g.store = .ok () s) :
      Step g { g.assign "HERE" room with store := s }
  | describes {g : Game} {s : Store}
      (hset : Store.setFlag (g.global "HERE") Play.touchedFlag g.store = .ok () s) :
      Step g { g with store := s }
  | dies (g : Game) : Step g { g.assign "DEAD-FLAG" (.bool true) with dead := true }
  | wins (g : Game) : Step g { g.assign "WON-FLAG" (.bool true) with won := true }

abbrev Steps : Game → Game → Prop := Relation.ReflTransGen Step

end Game

namespace Game

variable {g h : Game}

theorem Step.routines (hs : Step g h) : h.routines = g.routines := by
  cases hs with
  | tells ht => exact ht.routines
  | _ => rfl

theorem Step.actionless (hs : Step g h) (ha : g.store.Actionless) : h.store.Actionless := by
  cases hs with
  | tells ht => rwa [ht.store]
  | asks | dies | wins => exact ha
  | takes hscope htakeable hfree hmove hscore => exact (ha.of_move hmove).update _ fun _ ↦ rfl
  | takesFirst hscope htakeable hfree hmove huntouched htotal =>
    exact (ha.of_move hmove).update _ fun _ ↦ rfl
  | drops hheld hmove => exact ha.of_move hmove
  | walks hroom hmove => exact ha.of_move hmove
  | opens hscope hcontainer hset => exact ha.of_edit (f := (·.setFlag _)) (fun _ ↦ rfl) hset
  | closes hscope hcontainer hclear => exact ha.of_edit (f := (·.clearFlag _)) (fun _ ↦ rfl) hclear
  | describes hset => exact ha.of_edit (f := (·.setFlag _)) (fun _ ↦ rfl) hset

theorem Steps.routines (hs : Steps g h) : h.routines = g.routines := by
  induction hs with
  | refl => rfl
  | tail _ hstep ih => exact hstep.routines.trans ih

theorem Steps.actionless (hs : Steps g h) (ha : g.store.Actionless) : h.store.Actionless := by
  induction hs with
  | refl => exact ha
  | tail _ hstep ih => exact hstep.actionless ih

theorem Glimpse.step (hs : Glimpse g h) : Step g h := by
  cases hs with
  | tells ht => exact .tells ht
  | describes hset => exact .describes hset
  | dies => exact .dies g
  | wins => exact .wins g

theorem Glimpses.steps (hs : Glimpses g h) : Steps g h :=
  Relation.ReflTransGen.mono (fun _ _ ↦ Glimpse.step) _ _ hs

theorem Deed.steps {v : StandardVerb} (hd : Deed v g h) : Steps g h := by
  cases hd with
  | tells v ht => exact .single (.tells ht)
  | takes hx hscore hh =>
    exact .head (.takes hx.scope hx.takeable hx.free hx.move hscore) (.single (.tells hh))
  | takesFirst hx huntouched htotal hm =>
    have hstep := Step.takesFirst hx.scope hx.takeable hx.free hx.move huntouched ⟨_, _, htotal⟩
    exact .head hstep (.single (.tells (hm.assign "SCORE" _)))
  | drops hheld hmove hh => exact .head (.drops hheld hmove) (.single (.tells hh))
  | opens hscope hcontainer hset hh =>
    exact .head (.opens hscope hcontainer hset) (.single (.tells hh))
  | closes hscope hcontainer hclear hh =>
    exact .head (.closes hscope hcontainer hclear) (.single (.tells hh))
  | walks hroom hmove hh => exact .head (.walks hroom hmove) (Glimpses.steps hh)
  | stays hh => exact Glimpses.steps hh
  | looks hh => exact Glimpses.steps hh

theorem Does.steps {v : StandardVerb} (hd : g.Does v h) : Steps g h := by
  obtain ⟨k, hk, hd⟩ := hd
  exact .head (.tells hk) hd.steps

end Game

namespace Play

open Runs Game

variable {α β : Type} {g h : Game}

theorem Quiet.steps {p : Play α} (hp : Quiet p) (g : Game) : Steps g (after p g) :=
  .single (.tells (hp g))

theorem Quiet.bind_steps {p : Play α} {f : α → Play β} (hp : Quiet p)
    (hf : ∀ a h, p g = .ok a h → g.Told h → Steps h (after (f a) h)) :
    Steps g (after (p >>= f) g) :=
  related_bind (hp.steps g) fun a h hok ↦ hf a h hok (hp.told_of_ok hok)

theorem get_bind_steps {f : Game → Play β} (hf : Steps g (after (f g) g)) :
    Steps g (after (get >>= f) g) := hf

theorem exec_of_verb {r : Routine} {v : StandardVerb} (hr : r.body = .verb v) :
    Play.exec (.routine r) [] = standardVerb innerExec v := by
  change execWithin (callDepth - 1 + 1) (.routine r) [] = _
  rw [execWithin, hr]
  rfl

theorem of_routine {name r : Value} (hok : routine name g = .ok r h) :
    h = g ∧ r = (g.routines.find? name).getD .none := by
  by_cases hname : name.hashable
  · rw [routine, bind_of_ok (demand_of_hashable hname g)] at hok
    cases hok
    exact ⟨rfl, rfl⟩
  · rw [routine, bind_of_error (demand_of_not_hashable hname g)] at hok
    cases hok

theorem call_steps (hg : g.OnlyVerbs) (ha : g.store.Actionless) (name : Value) :
    Steps g (after (call Play.exec name []) g) := by
  have hroutine : Quiet (routine name) := .bind (.demand name) fun _ ↦ .get_bind fun _ ↦ .pure _
  refine hroutine.bind_steps fun r k hok _ ↦ ?_
  obtain ⟨rfl, rfl⟩ := of_routine hok
  split
  · exact .refl
  · next hsome =>
    cases hfind : k.routines.find? name with
    | none => simp [hfind, Value.isNone] at hsome
    | some r =>
      obtain ⟨q, v, rfl, hq⟩ := hg name r hfind
      rw [Option.getD_some, exec_of_verb hq]
      refine related_tryCatch ((standardVerb_does _ ha v).steps) fun e m _ ↦ ?_
      cases e with
      | signal s => exact .refl
      | fault f => exact .refl
      | ended reason => exact .refl

theorem offerVerb_steps (hg : g.OnlyVerbs) (ha : g.store.Actionless) (tag : Value) :
    Steps g (after (offerVerb Play.exec tag) g) := by
  have htext : Quiet (text tag) := .get_bind fun _ ↦ .lift _
  refine htext.bind_steps fun t k _ hk ↦ get_bind_steps ?_
  split
  · exact call_steps (fun name r hr ↦ hg name r (hk.routines ▸ hr)) (hk.store ▸ ha) _
  · exact Quiet.steps (.bind (.tell _) fun _ ↦ .pure _) k

/-- As long as nothing comes of the offers before it, it is the last one that matters. -/
theorem after_firstTaken {ps : List (Play Value)}
    (hps : ∀ p ∈ ps, after p g = g) (last : Play Value) :
    after (firstTaken ps last) g = g ∨ after (firstTaken ps last) g = after last g := by
  induction ps with
  | nil => exact .inr rfl
  | cons p ps ih =>
    have hp := hps p (by simp)
    cases hrun : p g with
    | ok v k =>
      obtain rfl : k = g := by rw [← hp, after_of_ok hrun]
      rw [firstTaken, after, bind_of_ok hrun, ← after]
      split
      · exact .inl rfl
      · exact ih fun q hq ↦ hps q (by simp [hq])
    | error e k =>
      rw [after_of_error hrun] at hp
      rw [firstTaken, after_of_error (bind_of_error hrun _)]
      exact .inl hp

theorem after_offer (ha : g.store.Actionless) (tag direct indirect : Value) :
    after (offer Play.exec tag direct indirect) g = g ∨
      after (offer Play.exec tag direct indirect) g = after (offerVerb Play.exec tag) g := by
  refine after_firstTaken (fun p hp ↦ ?_) (offerVerb Play.exec tag)
  have hto (id : Value) : after (offerTo Play.exec id) g = g := by
    unfold offerTo
    split
    · rfl
    · exact after_applyAction _ ha _ _
  simp only [List.mem_cons, List.not_mem_nil, or_false] at hp
  rcases hp with rfl | rfl | rfl | rfl
  · rw [after, Runs.get_bind, Runs.get_bind, Runs.get_bind]
    cases g.store.equal (g.global "WINNER") (g.global "PLAYER") with
    | true => rfl
    | false => exact after_applyAction _ ha _ _
  · exact after_applyAction _ ha _ _
  · exact hto indirect
  · exact hto direct

theorem offer_steps (hg : g.OnlyVerbs) (ha : g.store.Actionless) (tag direct indirect : Value) :
    Steps g (after (offer Play.exec tag direct indirect) g) := by
  rcases after_offer ha tag direct indirect with he | he
  · rw [he]
  · rw [he]
    exact offerVerb_steps hg ha tag

/-- A command leads from game to game by steps, whether it is carried out or left early. -/
theorem perform_steps (hg : g.OnlyVerbs) (ha : g.store.Actionless) (verb direct indirect : Value) :
    Steps g (after (perform Play.exec verb direct indirect) g) := by
  have htag : Quiet (verbTag verb) := .bind (.demand verb) fun _ ↦ .get_bind fun _ ↦ .pure _
  refine htag.bind_steps fun tag k _ hk ↦ ?_
  have hask : Step k (k.asked tag direct indirect) := .asks k tag direct indirect
  refine .head hask ?_
  change Steps (k.asked tag direct indirect) (after (do
    let handled ← offer Play.exec tag direct indirect
    discard <| applyAction Play.exec ((← get).global "HERE") (.message .after)
    pure handled.truthy) (k.asked tag direct indirect))
  have hoffer := offer_steps (g := k.asked tag direct indirect)
    (fun name r hr ↦ hg name r (hk.routines ▸ hr)) (hk.store.symm ▸ ha) tag direct indirect
  refine related_bind hoffer fun handled m hm ↦ get_bind_steps ?_
  rw [after_of_ok hm] at hoffer
  have hm : m.store.Actionless := hoffer.actionless (hk.store.symm ▸ ha)
  refine related_bind ?_ fun _ _ _ ↦ .refl
  rw [after_discard, after_applyAction _ hm]

/-- A line leads from game to game by steps if nothing comes of resolving it but what is told. -/
theorem turn_steps {resolve : String → Play (Option Command)} {line : String}
    (hresolve : Quiet (resolve line)) (hg : g.OnlyVerbs) (ha : g.store.Actionless) :
    Steps g (after (turn Play.exec resolve line) g) := by
  refine related_tryCatch (hresolve.bind_steps fun command k _ hk ↦ ?_) fun e k he ↦ ?_
  · cases command with
    | none => exact Quiet.steps (.bind (.tell _) fun _ ↦ .pure _) k
    | some c =>
      refine related_bind ?_ fun _ u _ ↦ .refl
      rw [after_discard]
      exact perform_steps (fun name r hr ↦ hg name r (hk.routines ▸ hr)) (hk.store ▸ ha) _ _ _
  · cases e with
    | fault f => exact .refl
    | signal s => exact .single (.tells ⟨rfl, rfl, rfl, rfl, rfl, rfl, rfl⟩)
    | ended q => exact .refl

end Play

end Fable
