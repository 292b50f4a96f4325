import Fable.Cli.Session
import Fable.Proofs.Draws
import Fable.Proofs.Exports
import Fable.Proofs.Sessions
import Fable.Proofs.Standard
import Fable.Proofs.Verbal

namespace Fable

namespace Runs

variable {ε σ α : Type}

def onState (f : σ → σ) : EStateM.Result ε σ α → EStateM.Result ε σ α
  | .ok a s => .ok a (f s)
  | .error e s => .error e (f s)

end Runs

namespace Game

structure Ready (g : Game) : Prop where
  verbs : g.OnlyVerbs
  actions : ∀ e ∈ g.store.records, e.2.action.isNone ∨ e.2.action.isText

variable {g h : Game}

theorem Ready.action (hg : g.Ready) {id : Value} {r : Record} (hr : g.store.find? id = some r) :
    r.action.isNone ∨ r.action.isText := by
  obtain ⟨e, he, -, rfl⟩ := Store.exists_mem_of_find? g.store hr
  exact hg.actions e he

theorem Ready.update (hg : g.Ready) (id : Value) {f : Record → Record}
    (hf : ∀ r, (f r).action = r.action) :
    { g with store := g.store.update id f }.Ready := by
  refine ⟨hg.verbs, fun e he ↦ ?_⟩
  obtain ⟨e', he', rfl⟩ := List.mem_map.1 he
  have ha := hg.actions e' he'
  split
  · rwa [hf]
  · exact ha

theorem Ready.edit (hg : g.Ready) {id : Value} {objection : Option Fault} {f : Record → Record}
    (hf : ∀ r, (f r).action = r.action) {s : Store}
    (hs : Store.edit id objection f g.store = .ok () s) :
    { g with store := s }.Ready := by
  rcases Store.of_edit_ok hs with rfl | rfl
  · exact hg
  · exact hg.update id hf

theorem Ready.move (hg : g.Ready) {id into : Value} {s : Store}
    (hs : Store.move id into g.store = .ok () s) :
    { g with store := s }.Ready := by
  rcases Store.of_move_ok hs with rfl | ⟨r, -, -, rfl⟩
  · exact hg
  · have hmoved := hg.update id (f := fun r ↦ { r with parent := into }) fun _ ↦ rfl
    exact ⟨hmoved.verbs, hmoved.actions⟩

structure Grows (g h : Game) : Prop where
  ready : h.Ready
  strict : h.config.strict = g.config.strict
  written : g.written.toList <+: h.written.toList
  diagnostics : g.diagnostics <+: h.diagnostics

theorem Grows.of_veil (hready : h.Ready) (hveil : h.veil = g.veil) : g.Grows h := by
  have hwritten : h.written = g.written := congrArg (·.written) hveil
  have hdiagnostics : h.diagnostics = g.diagnostics := congrArg (·.diagnostics) hveil
  refine ⟨hready, congrArg (·.strict) hveil, ?_, ?_⟩
  · rw [hwritten]
  · rw [hdiagnostics]

theorem Grows.wrote (hg : g.Ready) (t : Twister) (vs : List Value) :
    g.Grows ({ g with generator := t }.wrote vs) := by
  refine ⟨⟨hg.verbs, hg.actions⟩, rfl, ?_, List.prefix_rfl⟩
  rw [toList_wrote]
  exact List.prefix_append _ _

instance : IsTrans Game Grows where
  trans _ _ _ hgh hhk := ⟨hhk.ready, hhk.strict.trans hgh.strict, hgh.written.trans hhk.written,
    hgh.diagnostics.trans hhk.diagnostics⟩

end Game

namespace Play

open Runs Game

variable {α β : Type}

variable {g : Game} {t : Twister}

theorem refuse_of_ok {v : Value}
    (h : Draw.pickOne (.list StandardVerb.refusals) g.generator = .ok v t) :
    refuse g = .ok () ({ g with generator := t }.wrote [v, .text "\n"]) := by
  have hdraw : onGenerator (Draw.pickOne (.list StandardVerb.refusals)) g =
      .ok v { g with generator := t } := by
    simp only [onGenerator, h]
  have hmem : v ∈ StandardVerb.refusals := Draw.mem_of_pickOne rfl (List.cons_ne_nil _ _) h
  have htext : v.isText := (by decide : ∀ w ∈ StandardVerb.refusals, w.isText) v hmem
  rw [refuse, bind_of_ok hdraw]
  refine tell_of_render ?_
  cases v with
  | text s => rfl
  | message m => rfl
  | _ => cases htext

theorem refuse_of_error {f : Fault}
    (h : Draw.pickOne (.list StandardVerb.refusals) g.generator = .error f t) :
    refuse g = .error (.fault f) { g with generator := t } := by
  have hdraw : onGenerator (Draw.pickOne (.list StandardVerb.refusals)) g =
      .error (.fault f) { g with generator := t } := by simp only [onGenerator, h]
  rw [refuse, bind_of_error hdraw]

/-- Computations that do not look behind the veil. Reports and random refusals are the only things
that come from there, and faults are not held up. -/
inductive Blind : {α : Type} → Play α → Prop
  | unseen {α : Type} {p : Play α} (hsame : ∀ g v, p (g.veiled v) = onState (·.veiled v) (p g))
      (hready : ∀ g, g.Ready → (after p g).Ready) : Blind p
  | look {β : Type} {f : Game → Play β} (hsame : ∀ g v, f (g.veiled v) = f g)
      (hf : ∀ g, g.Ready → Blind (f g)) : Blind (get >>= f)
  | bind {α β : Type} {p : Play α} {f : α → Play β} (hp : Blind p) (hf : ∀ a, Blind (f a)) :
      Blind (p >>= f)
  | write (v : Value) : Blind (Play.write v)
  | note (e : Event) : Blind (Play.note e)
  | report {f : Fault} (hf : f.isAuthoring) : Blind (Play.report f)
  | refuse : Blind Play.refuse
  | rescue {α : Type} {p : Play α} {f : Exit → Play α} (hp : Blind p) (hf : ∀ e, Blind (f e))
      (hfault : ∀ x, f (.fault x) = throw (.fault x)) : Blind (tryCatch p f)

theorem veil_after {p : Play α} (hsame : ∀ g v, p (g.veiled v) = onState (·.veiled v) (p g))
    (g : Game) :
    (after p g).veil = g.veil := by
  have hself : p g = onState (·.veiled g.veil) (p g) := hsame g g.veil
  rw [after, hself]
  cases p g with
  | ok a k => rfl
  | error e k => rfl

theorem report_of_strict (h : g.config.strict.truthy) (f : Fault) :
    report f g = .error (.fault f) g := by
  rw [report, get_bind, h]
  rfl

theorem Blind.grows {p : Play α} (hp : Blind p) (hg : g.Ready) : g.Grows (after p g) := by
  induction hp generalizing g with
  | unseen hsame hready => exact .of_veil (hready g hg) (veil_after hsame g)
  | look _ _ ih => exact ih g hg hg
  | bind _ _ ihp ihf =>
    refine related_bind (ihp hg) fun a k hk ↦ ihf a ?_
    rw [← after_of_ok hk]
    exact (ihp hg).ready
  | write v => exact .wrote hg g.generator [v]
  | note e => exact ⟨⟨hg.verbs, hg.actions⟩, rfl, List.prefix_rfl, List.prefix_rfl⟩
  | @report f hf =>
    cases hs : g.config.strict.truthy with
    | false =>
      rw [after_of_ok (report_of_relaxed hs f)]
      exact ⟨⟨hg.verbs, hg.actions⟩, rfl, List.prefix_rfl, List.prefix_append _ _⟩
    | true =>
      rw [after_of_error (report_of_strict hs f)]
      exact .of_veil hg rfl
  | refuse =>
    cases hdraw : Draw.pickOne (.list StandardVerb.refusals) g.generator with
    | ok v t =>
      rw [after_of_ok (refuse_of_ok hdraw)]
      exact .wrote hg t _
    | error f t =>
      rw [after_of_error (refuse_of_error hdraw)]
      exact ⟨⟨hg.verbs, hg.actions⟩, rfl, List.prefix_rfl, List.prefix_rfl⟩
  | rescue _ _ _ ihp ihf =>
    refine related_tryCatch (ihp hg) fun e k hk ↦ ihf e ?_
    rw [← after_of_error hk]
    exact (ihp hg).ready

namespace Blind

theorem pure (a : α) : Blind (Pure.pure a : Play α) := .unseen (fun _ _ ↦ rfl) fun _ hg ↦ hg

theorem throw (e : Exit) : Blind (MonadExcept.throw e : Play α) :=
  .unseen (fun _ _ ↦ rfl) fun _ hg ↦ hg

theorem fail (f : Fault) : Blind (Play.fail f : Play α) := throw _

theorem ite {c : Prop} [Decidable c] {p q : Play α} (hp : Blind p) (hq : Blind q) :
    Blind (if c then p else q) := by
  split
  · exact hp
  · exact hq

theorem forM {xs : List α} {f : α → Play Unit} (hf : ∀ x, Blind (f x)) : Blind (xs.forM f) := by
  induction xs with
  | nil => exact pure ()
  | cons x xs ih => exact .bind (hf x) fun _ ↦ ih

theorem discards {p : Play α} (hp : Blind p) : Blind (discard p) := by
  have heq : discard p = p >>= fun _ ↦ Pure.pure () := by
    funext g
    cases hrun : p g with
    | ok a k =>
      rw [discard_of_ok hrun, bind_of_ok hrun]
      rfl
    | error e k => rw [discard_of_error hrun, bind_of_error hrun]
  rw [heq]
  exact .bind hp fun _ ↦ pure ()

theorem lift (e : Except Fault α) : Blind (Play.lift e) := by
  cases e with
  | ok a => exact pure a
  | error f => exact fail f

theorem demand (v : Value) : Blind (Play.demand v) := ite (pure ()) (fail _)

theorem newStamps (n : Nat) : Blind (Play.newStamps n) :=
  .unseen (fun _ _ ↦ rfl) fun _ hg ↦ ⟨hg.verbs, hg.actions⟩

theorem fresh (v : Value) : Blind (Play.fresh v) := by
  obtain ⟨n, f, hv⟩ := exists_fresh_eq v
  rw [hv]
  exact .bind (newStamps n) fun _ ↦ pure _

theorem sum (v w : Value) : Blind (Play.sum v w) := .bind (lift _) fresh

theorem setGlobal (name : String) (v : Value) : Blind (Play.setGlobal name v) :=
  .unseen (fun _ _ ↦ rfl) fun _ hg ↦ ⟨hg.verbs, hg.actions⟩

theorem edit (id : Value) (objection : Option Fault) {f : Record → Record}
    (hf : ∀ r, (f r).action = r.action) :
    Blind (onStore (Store.edit id objection f)) := by
  refine .unseen (fun g v ↦ ?_) fun g hg ↦ ?_
  · cases hs : Store.edit id objection f g.store with
    | ok u s =>
      rw [onStore_of_ok hs]
      exact onStore_of_ok hs
    | error e s =>
      rw [onStore_of_error hs]
      exact onStore_of_error hs
  · cases hs : Store.edit id objection f g.store with
    | ok u s =>
      rw [after_of_ok (onStore_of_ok hs)]
      exact hg.edit hf hs
    | error e s =>
      rw [after_of_error (onStore_of_error hs), Store.of_edit_error hs]
      exact hg

theorem setFlag (id flag : Value) : Blind (onStore (Store.setFlag id flag)) := edit _ _ fun _ ↦ rfl

theorem clearFlag (id flag : Value) : Blind (onStore (Store.clearFlag id flag)) :=
  edit _ _ fun _ ↦ rfl

end Blind

theorem move_eq (id into : Value) : Play.move id into = (do
    match Store.move id into (← get).store with
    | .ok _ s =>
      modify fun g ↦ { g with store := s }
      pure true
    | .error f _ => if f.isAuthoring then do report f; pure false else fail f) := by
  funext g
  rw [Runs.get_bind]
  cases hs : Store.move id into g.store with
  | ok u s => exact move_of_ok hs
  | error f s => exact move_of_error hs

namespace Blind

theorem move (id into : Value) : Blind (Play.move id into) := by
  rw [move_eq]
  refine .look (fun _ _ ↦ rfl) fun g hg ↦ ?_
  cases hs : Store.move id into g.store with
  | ok u s =>
    refine .bind (.unseen (fun _ _ ↦ rfl) fun k hk ↦ ?_) fun _ ↦ pure _
    exact ⟨hk.verbs, (hg.move hs).actions⟩
  | error f s =>
    dsimp only
    split
    · next hf => exact .bind (.report hf) fun _ ↦ pure _
    · exact fail f

theorem tell (tokens : List Value) : Blind (Play.tell tokens) := by
  refine .look (fun _ _ ↦ rfl) fun g _ ↦ .bind (forM .write) fun _ ↦ ?_
  split
  · split
    · next hf => exact .report hf
    · exact fail _
  · exact pure ()

end Blind

/-- Nothing that verbs are put together from looks behind the veil. -/
theorem Verbal.blind {p : Play α} (hp : Verbal p) : Blind p := by
  induction hp with
  | pure a => exact .pure a
  | fail f => exact .fail f
  | signal s => exact .throw _
  | signal_bind s f => exact .unseen (fun _ _ ↦ rfl) fun _ hg ↦ hg
  | bind _ _ ihp ihf => exact .bind ihp ihf
  | look hsame _ ih => exact .look hsame fun g _ ↦ ih g
  | newStamps n => exact .newStamps n
  | tell tokens => exact .tell tokens
  | move id into => exact .move id into
  | setFlag id flag => exact .setFlag id flag
  | clearFlag id flag => exact .clearFlag id flag
  | refuse => exact .refuse
  | reward id =>
    refine .look (fun _ _ ↦ rfl) fun _ _ ↦
      .discards (.look (fun _ _ ↦ rfl) fun _ _ ↦ .bind (.sum _ _) fun _ ↦ ?_)
    exact .bind (.setGlobal _ _) fun _ ↦ .pure _

namespace Blind

end Blind

end Play

end Fable
