import Fable.Proofs.Blind

namespace Fable

namespace Play

open Runs Game

variable {α β : Type} {g : Game}

namespace Blind
theorem die (message : Value) : Blind (Play.die message : Play α) := by
  refine .bind (.write _) fun _ ↦ .bind (.write _) fun _ ↦ .look (fun _ _ ↦ rfl) fun _ _ ↦ ?_
  refine .bind (lift _) fun _ ↦ .bind (.write _) fun _ ↦ .bind (setGlobal _ _) fun _ ↦
    .bind ?_ fun _ ↦ ?_
  · exact .unseen (fun _ _ ↦ rfl) fun _ hg ↦ ⟨hg.verbs, hg.actions⟩
  · exact .bind (.note _) fun _ ↦ throw _

theorem win : Blind (Play.win : Play α) := by
  refine .look (fun _ _ ↦ rfl) fun _ _ ↦ .bind (lift _) fun _ ↦ .bind (lift _) fun _ ↦
    .bind (.write _) fun _ ↦ ?_
  refine .bind (setGlobal _ _) fun _ ↦ .bind ?_ fun _ ↦ .look (fun _ _ ↦ rfl) fun _ _ ↦ ?_
  · exact .unseen (fun _ _ ↦ rfl) fun _ hg ↦ ⟨hg.verbs, hg.actions⟩
  · exact .bind (.note _) fun _ ↦ throw _

theorem arrive (room : Value) : Blind (Play.arrive room) := by
  have hwin : Blind (do
      if ((← get).store.property room (.text "VICTORY") .none).truthy then Play.win : Play Unit) :=
    .look (fun _ _ ↦ rfl) fun _ _ ↦ ite win (pure ())
  exact .look (fun _ _ ↦ rfl) fun _ _ ↦ ite (.bind (die _) fun _ ↦ hwin) hwin

theorem boundary {p : Play Value} (hp : Blind p) : Blind (Play.boundary p) := by
  refine .rescue hp (fun e ↦ ?_) fun _ ↦ rfl
  cases e with
  | signal s => exact pure _
  | fault f => exact throw _
  | ended r => exact throw _

theorem firstTaken {ps : List (Play Value)} {last : Play Value}
    (hps : ∀ p ∈ ps, Blind p) (hlast : Blind last) :
    Blind (Play.firstTaken ps last) := by
  induction ps with
  | nil => exact hlast
  | cons p ps ih =>
    exact .bind (hps p (by simp)) fun v ↦ ite (pure _) (ih fun q hq ↦ hps q (by simp [hq]))

section

variable {exec : Exec} (hexec : ∀ q v args, q.body = .verb v → Blind (exec (.routine q) args))

include hexec

theorem call (name : Value) (args : List Value) : Blind (Play.call exec name args) := by
  simp only [Play.call, Play.routine, bind_assoc, pure_bind]
  refine .bind (demand name) fun _ ↦ .look (fun _ _ ↦ rfl) fun g hg ↦ ?_
  cases hr : g.routines.find? name with
  | none => exact pure _
  | some r =>
    obtain ⟨q, v, rfl, hq⟩ := hg.verbs name r hr
    exact boundary (hexec q v args hq)

theorem applyAction (id message : Value) : Blind (Play.applyAction exec id message) := by
  refine .bind (demand id) fun _ ↦ .look (fun _ _ ↦ rfl) fun g hg ↦ ?_
  split
  · exact pure _
  · next r hr =>
    split
    · exact pure _
    · next hnone =>
      rw [if_pos ((hg.action hr).resolve_left hnone)]
      exact call hexec _ _

theorem goTo (room : Value) : Blind (Play.goTo exec room) := by
  refine .look (fun _ _ ↦ rfl) fun g _ ↦ .bind (move _ room) fun moved ↦ ite ?_ (pure _)
  exact .bind (setGlobal _ _) fun _ ↦ applyAction hexec room _

theorem look_verb : Blind (Play.look exec) :=
  .look (fun _ _ ↦ rfl) fun _ _ ↦ .bind (tell _) fun _ ↦ .bind (applyAction hexec _ _) fun _ ↦
    .bind (Verbal.describeRoom _).blind fun _ ↦ throw _

theorem walk : Blind (Play.walk exec) := by
  rw [walk_eq]
  refine .bind Verbal.setOut.blind fun dest ↦ .bind (goTo hexec dest) fun handled ↦
    .look (fun _ _ ↦ rfl) fun _ _ ↦ ?_
  refine ite (.unseen (fun _ _ ↦ rfl) fun _ hg ↦ hg)
    (.bind (Verbal.describeRoom _).blind fun _ ↦ ?_)
  exact .bind (arrive dest) fun _ ↦ throw _

theorem standardVerb (v : StandardVerb) : Blind (Play.standardVerb exec v) := by
  cases v with
  | look => exact look_verb hexec
  | examine => exact Verbal.examine.blind
  | take => exact Verbal.take.blind
  | drop => exact Verbal.drop.blind
  | inventory => exact Verbal.inventory.blind
  | openUp => exact Verbal.openUp.blind
  | closeUp => exact Verbal.closeUp.blind
  | walk => exact walk hexec
  | score => exact Verbal.showScore.blind
  | quit => exact throw _

theorem offer (tag direct indirect : Value) : Blind (Play.offer exec tag direct indirect) := by
  have hto (id : Value) : Blind (Play.offerTo exec id) := ite (pure _) (applyAction hexec id _)
  have hverb : Blind (Play.offerVerb exec tag) := by
    refine .bind (.look (fun _ _ ↦ rfl) fun _ _ ↦ lift _) fun t ↦ .look (fun _ _ ↦ rfl) fun _ _ ↦ ?_
    exact ite (call hexec _ _) (.bind (tell _) fun _ ↦ pure _)
  refine firstTaken (fun p hp ↦ ?_) hverb
  simp only [List.mem_cons, List.not_mem_nil, or_false] at hp
  rcases hp with rfl | rfl | rfl | rfl
  · refine .look (fun _ _ ↦ rfl) fun _ _ ↦ .look (fun _ _ ↦ rfl) fun _ _ ↦
      .look (fun _ _ ↦ rfl) fun _ _ ↦ ?_
    exact ite (pure _) (applyAction hexec _ _)
  · exact .look (fun _ _ ↦ rfl) fun _ _ ↦ applyAction hexec _ _
  · exact hto indirect
  · exact hto direct

theorem perform (verb direct indirect : Value) :
    Blind (Play.perform exec verb direct indirect) := by
  refine .bind (.bind (demand verb) fun _ ↦ .look (fun _ _ ↦ rfl) fun _ _ ↦ pure _) fun tag ↦ ?_
  refine .bind (setGlobal _ _) fun _ ↦ .bind (setGlobal _ _) fun _ ↦
    .bind (setGlobal _ _) fun _ ↦ ?_
  refine .bind (offer hexec tag direct indirect) fun handled ↦ .look (fun _ _ ↦ rfl) fun _ _ ↦ ?_
  exact .bind (discards (applyAction hexec _ _)) fun _ ↦ pure _

end

theorem execWithin (n : Nat) :
    ∀ q v args, q.body = .verb v → Blind (Play.execWithin n (.routine q) args) := by
  induction n with
  | zero => exact fun _ _ _ _ ↦ fail _
  | succ n ih =>
    intro q v args hq
    rw [Play.execWithin, hq]
    exact ite (standardVerb ih v) (fail _)

theorem exec (q : Routine) (v : StandardVerb) (args : List Value) (hq : q.body = .verb v) :
    Blind (Play.exec (.routine q) args) :=
  execWithin callDepth q v args hq

end Blind

/-- What catches only signals has nothing to do where there are none. -/
theorem tryCatch_of_unsignalled {p : Play α} {f : Exit → Play α} (hp : Obeys Unsignalled p)
    (hf : ∀ e, (∀ s, e ≠ .signal s) → f e = throw e) : tryCatch p f = p := by
  funext g
  have hg := hp g
  cases hrun : p g with
  | ok a k => exact tryCatch_of_ok hrun f
  | error e k =>
    rw [exit?_of_error hrun] at hg
    rw [tryCatch_of_error hrun, hf e fun s he ↦ hg s (congrArg some he)]
    rfl

namespace Blind

theorem turn (walkVerb : Value) (line : String) :
    Blind (Play.turn Play.exec (resolve walkVerb) line) := by
  have hresolve : Obeys Unsignalled (resolve walkVerb line) := .get_bind fun _ ↦ .lift _
  rw [Play.turn, tryCatch_of_unsignalled]
  · refine .bind (.look (fun _ _ ↦ ?_) fun _ _ ↦ lift _) fun c ↦ ?_
    · rfl
    split
    · exact .bind (tell _) fun _ ↦ pure _
    · exact .bind (discards (perform exec _ _ _)) fun _ ↦ pure _
  · refine .bind hresolve fun c ↦ ?_
    split
    · exact .bind (.tell _) fun _ ↦ .pure _
    · exact .bind (.bind (.perform _ _ _) fun _ ↦ .pure ()) fun _ ↦ .pure _
  · intro e he
    cases e with
    | signal s => exact absurd rfl (he s)
    | fault f => rfl
    | ended r => rfl

theorem showRead (echo : Bool) (line : Option Value) :
    Blind (Play.showRead (.script echo) line) := by
  cases echo with
  | false => cases line <;> exact pure ()
  | true =>
    cases line with
    | none => exact pure ()
    | some line =>
      refine .look (fun _ _ ↦ rfl) fun _ _ ↦ .look (fun _ _ ↦ rfl) fun _ _ ↦
        .bind (lift _) fun _ ↦ ?_
      exact .write _

theorem countMove : Blind Play.countMove :=
  .look (fun _ _ ↦ rfl) fun _ _ ↦ .bind (sum _ _) fun _ ↦ setGlobal _ _

theorem atLimit : Blind Play.atLimit :=
  .look (fun _ _ ↦ rfl) fun _ _ ↦ ite (pure _)
    (.look (fun _ _ ↦ rfl) fun _ _ ↦ .look (fun _ _ ↦ rfl) fun _ _ ↦ lift _)

theorem turns (walkVerb : Value) (echo : Bool) (lines : List Value) :
    Blind (Play.turns Play.exec (resolve walkVerb) (.script echo) lines) := by
  induction lines with
  | nil => exact .bind atLimit fun _ ↦ ite (pure _) (.bind (showRead _ _) fun _ ↦ pure _)
  | cons line rest ih =>
    refine .bind atLimit fun _ ↦ ite (pure _) (.bind (showRead _ _) fun _ ↦ ite (pure _) ?_)
    split
    · exact fail _
    · refine ite ih (.bind (turn walkVerb _) fun counts ↦ ?_)
      exact ite (.bind countMove fun _ ↦ ih) ih

/-- Nothing in a session looks behind the veil. -/
theorem session (walkVerb : Value) (echo : Bool) (lines : List Value) (start : Value) :
    Blind (Play.session Play.exec (resolve walkVerb) (.script echo) lines start) :=
  .bind (ite (pure ()) (discards (goTo exec start))) fun _ ↦ turns walkVerb echo lines

end Blind

end Play

def Play.scripted (walkVerb : Value) (echo : Bool) (lines : List Value) (start : Value) :
    Play Value :=
  Play.run Play.exec (Play.resolve walkVerb) (.script echo) lines start

theorem Game.ready_of_start {config : Config} {g : Game} (h : Game.start config = .ok g) :
    g.Ready := by
  obtain ⟨-, generator, log, rfl⟩ := Game.exists_eq_of_start h
  refine ⟨fun name r hr ↦ (nomatch hr), fun e he ↦ ?_⟩
  obtain rfl := List.mem_singleton.1 he
  exact .inl rfl

theorem World.ObjectSpec.action_of_record {o : ObjectSpec}
    {properties id : Value} {n : Nat} {r : Record}
    (hr : (o.attributes properties).record id n = .ok r) : r.action = optional o.action := by
  obtain ⟨flags, -, hr⟩ := exists_of_bind_ok hr
  obtain ⟨table, -, hr⟩ := exists_of_bind_ok hr
  cases hr
  obtain ⟨_, _, desc, ldesc, fdesc, _, _, _, _, action, _⟩ := o
  cases desc <;> cases ldesc <;> cases fdesc <;> cases action <;> rfl

namespace Play

open Runs Game

theorem ready_define {g : Game} (hg : g.Ready) (o : World.ObjectSpec) (properties : Value) :
    (after (onStore (Store.define (.text o.id) (o.attributes properties))) g).Ready := by
  have hleave : ({ g with store := g.store.leave (.text o.id) } : Game).Ready :=
    ⟨hg.verbs, by rw [Store.leave_records]; exact hg.actions⟩
  rw [after, onStore, Store.define]
  cases g.store.refusal? (.text o.id) (o.attributes properties) with
  | some f => exact hg
  | none =>
    cases hr : (o.attributes properties).record (.text o.id) g.store.made with
    | error f => exact hleave
    | ok r =>
      refine ⟨hg.verbs, fun e he ↦ ?_⟩
      rcases Store.of_mem_entries_insert (List.mem_map_of_mem he) with hnew | hold
      · rw [hnew, World.ObjectSpec.action_of_record hr]
        cases o.action with
        | none => exact .inl rfl
        | some name => exact .inr rfl
      · obtain ⟨e', he', hsame⟩ := List.mem_map.1 hold
        rw [← hsame]
        exact hleave.actions e' he'

namespace Blind

theorem installStandardVerbs : Blind Play.installStandardVerbs := by
  have hverb (verb tag : Value) : Blind (registerVerb verb tag) := by
    refine .bind (demand verb) fun _ ↦ .bind (.unseen (fun _ _ ↦ rfl) fun g hg ↦ ?_) fun _ ↦ pure _
    exact ⟨hg.verbs, hg.actions⟩
  have hroutine (v : StandardVerb) : Blind (registerVerbRoutine v) := by
    refine .unseen (fun _ _ ↦ rfl) fun g hg ↦ ?_
    obtain ⟨h, hrun, heq, -⟩ := registerVerbRoutine_run v g
    rw [after_of_ok hrun]
    exact ⟨heq.only hg.verbs, heq.store ▸ hg.actions⟩
  exact .bind (forM fun _ ↦ discards (hverb _ _)) fun _ ↦ forM hroutine

theorem installObject (o : World.ObjectSpec) : Blind o.install := by
  refine .look (fun _ _ ↦ rfl) fun g _ ↦ .bind (lift _) fun es ↦ .bind ?_ fun properties ↦ ?_
  · exact .unseen (fun _ _ ↦ rfl) fun _ hg ↦ ⟨hg.verbs, hg.actions⟩
  refine .unseen (fun g v ↦ ?_) fun g hg ↦ ?_
  · cases hs : Store.define (.text o.id) (o.attributes properties) g.store with
    | ok r s =>
      have hveiled := onStore_of_ok (g := g.veiled v) hs
      rw [tryCatch_of_ok (discard_of_ok (onStore_of_ok hs)), tryCatch_of_ok (discard_of_ok hveiled)]
      rfl
    | error f s =>
      have hveiled := onStore_of_error (g := g.veiled v) hs
      rw [tryCatch_of_error (discard_of_error (onStore_of_error hs)),
        tryCatch_of_error (discard_of_error hveiled)]
      cases f <;> rfl
  · have hdefined := ready_define hg o properties
    cases hs : onStore (Store.define (.text o.id) (o.attributes properties)) g with
    | ok r k =>
      rw [after_of_ok hs] at hdefined
      rwa [after_of_ok (tryCatch_of_ok (discard_of_ok hs) _)]
    | error e k =>
      rw [after_of_error hs] at hdefined
      rw [after, tryCatch_of_error (discard_of_error hs)]
      cases e with
      | fault f => cases f <;> exact hdefined
      | signal s => exact hdefined
      | ended r => exact hdefined

theorem install (w : World.Spec) : Blind w.install := by
  have hlast : Blind (do
      Play.note (.installed w.title w.objects.length)
      Pure.pure (World.optional w.start)) := .bind (.note _) fun _ ↦ pure _
  refine .bind (forM fun e ↦ .unseen (fun _ _ ↦ rfl) fun _ hg ↦ ⟨hg.verbs, hg.actions⟩) fun _ ↦ ?_
  refine .bind (forM fun e ↦ discards (.bind (demand _) fun _ ↦ .bind ?_ fun _ ↦ pure _)) fun _ ↦ ?_
  · exact .unseen (fun _ _ ↦ rfl) fun _ hg ↦ ⟨hg.verbs, hg.actions⟩
  refine .bind (forM installObject) fun _ ↦ ?_
  split
  · exact hlast
  · exact .look (fun _ _ ↦ rfl) fun _ _ ↦ ite (.bind (fail _) fun _ ↦ hlast) hlast

theorem prepare (w : World.Spec) : Blind (Cli.prepare w) :=
  .bind installStandardVerbs fun _ ↦ install w

end Blind

end Play

end Fable
