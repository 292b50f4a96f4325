import Fable.Proofs.Scripted
import Fable.Proofs.Refusal

namespace Fable

namespace Game

def hardened (g : Game) (strict : Value) : Game := { g with config := { g.config with strict } }

end Game

namespace Play

open Runs Game

variable {α β : Type} {p : Play α} {g : Game} {strict : Value}

/-- Without a report strictness makes no difference; with one the strict game fails at the first of
them. -/
inductive Strictly (strict : Value) (p : Play α) (g : Game) : Prop
  | same (hnone : (after p g).diagnostics = g.diagnostics)
      (hrun : p (g.hardened strict) = onState (·.hardened strict) (p g)) : Strictly strict p g
  | fails {f : Fault} {k : Game} (hf : f.isAuthoring)
      (hrun : p (g.hardened strict) = .error (.fault f) k)
      (hfirst : g.diagnostics ++ [f.text] <+: (after p g).diagnostics)
      (hwritten : k.written.toList <+: (after p g).written.toList) : Strictly strict p g

theorem Strictly.continued {q r : Play β} {k : Game} (hp : Strictly strict p g) (hk : after p g = k)
    (hq : q g = r k)
    (hsame : p (g.hardened strict) = onState (·.hardened strict) (p g) →
      q (g.hardened strict) = r (k.hardened strict))
    (hpass : ∀ f k, p (g.hardened strict) = .error (.fault f) k →
      q (g.hardened strict) = .error (.fault f) k)
    (hgrows : k.Grows (after r k)) (hnext : Strictly strict r k) : Strictly strict q g := by
  have hafter : after q g = after r k := by rw [after, hq, after]
  subst hk
  cases hp with
  | same hnone hrun =>
    cases hnext with
    | same hnone' hrun' =>
      refine .same ?_ ?_
      · rw [hafter, hnone', hnone]
      · rw [hsame hrun, hrun', hq]
    | fails hf hrun' hfirst hwritten =>
      rw [← hafter] at hfirst hwritten
      exact .fails hf ((hsame hrun).trans hrun') (hnone ▸ hfirst) hwritten
  | fails hf hrun hfirst hwritten =>
    refine .fails hf (hpass _ _ hrun) ?_ ?_
    · rw [hafter]
      exact hfirst.trans hgrows.diagnostics
    · rw [hafter]
      exact hwritten.trans hgrows.written

/-- By induction on the parts of a computation: a report is where the strict game fails, and nothing
holds up a fault. -/
theorem Blind.strictly (hs : strict.truthy) (hp : Blind p) (hg : g.Ready)
    (hrelaxed : g.config.strict.truthy = false) : Strictly strict p g := by
  induction hp generalizing g with
  | @unseen _ p hsame hready =>
    have hveil := veil_after hsame g
    refine .same (congrArg (·.diagnostics) hveil) ?_
    have hrun : p (g.hardened strict) = _ := hsame g { g.veil with strict := strict }
    rw [hrun, ← hveil, after]
    cases p g with
    | ok a k => rfl
    | error e k => rfl
  | @look _ f hsame hf ih =>
    have hlook : f (g.hardened strict) = f g := hsame g { g.veil with strict := strict }
    have hstart : Strictly strict (Pure.pure () : Play Unit) g := .same rfl rfl
    refine hstart.continued (r := f g) rfl rfl (fun _ ↦ ?_) (fun x k h ↦ ?_)
      ((hf g hg).grows hg) (ih g hg hg hrelaxed)
    · rw [get_bind, hlook]
      rfl
    · cases h
  | @bind _ _ p f hp hf ihp ihf =>
    have hgrows := hp.grows hg
    have hpass (x : Fault) (k : Game) (h : p (g.hardened strict) = .error (.fault x) k) :=
      bind_of_error h f
    cases hrun : p g with
    | ok a k =>
      rw [after_of_ok hrun] at hgrows
      have hnext := ihf a hgrows.ready (hgrows.strict ▸ hrelaxed)
      refine (ihp hg hrelaxed).continued (after_of_ok hrun) (bind_of_ok hrun f) (fun h ↦ ?_) hpass
        ((hf a).grows hgrows.ready) hnext
      rw [hrun] at h
      exact bind_of_ok h f
    | error e k =>
      rw [after_of_error hrun] at hgrows
      refine (ihp hg hrelaxed).continued (r := MonadExcept.throw e)
        (after_of_error hrun) (bind_of_error hrun f)
        (fun h ↦ ?_) hpass (.of_veil hgrows.ready rfl) (.same rfl rfl)
      rw [hrun] at h
      exact bind_of_error h f
  | write v => exact .same rfl rfl
  | note e => exact .same rfl rfl
  | @report f hf =>
    refine .fails hf (report_of_strict hs f) ?_ ?_
    · rw [after_of_ok (report_of_relaxed hrelaxed f)]
      exact List.prefix_rfl
    · rw [after_of_ok (report_of_relaxed hrelaxed f)]
      exact List.prefix_rfl
  | refuse =>
    cases hdraw : Draw.pickOne (.list StandardVerb.refusals) g.generator with
    | ok v t =>
      have hrun : Play.refuse (g.hardened strict) = _ := refuse_of_ok hdraw
      refine .same ?_ ?_
      · rw [after_of_ok (refuse_of_ok hdraw)]
        rfl
      · rw [hrun, refuse_of_ok hdraw]
        rfl
    | error f t =>
      have hrun : Play.refuse (g.hardened strict) = _ := refuse_of_error hdraw
      refine .same ?_ ?_
      · rw [after_of_error (refuse_of_error hdraw)]
      · rw [hrun, refuse_of_error hdraw]
        rfl
  | @rescue _ p f hp hf hfault ihp ihf =>
    have hgrows := hp.grows hg
    have hpass (x : Fault) (k : Game) (h : p (g.hardened strict) = .error (.fault x) k) :
        tryCatch p f (g.hardened strict) = .error (.fault x) k := by
      rw [tryCatch_of_error h, hfault]
      rfl
    cases hrun : p g with
    | ok a k =>
      rw [after_of_ok hrun] at hgrows
      refine (ihp hg hrelaxed).continued (r := Pure.pure a)
        (after_of_ok hrun) (tryCatch_of_ok hrun f)
        (fun h ↦ ?_) hpass (.of_veil hgrows.ready rfl) (.same rfl rfl)
      rw [hrun] at h
      exact tryCatch_of_ok h f
    | error e k =>
      rw [after_of_error hrun] at hgrows
      have hnext := ihf e hgrows.ready (hgrows.strict ▸ hrelaxed)
      refine (ihp hg hrelaxed).continued (after_of_error hrun)
        (tryCatch_of_error hrun f) (fun h ↦ ?_) hpass
        ((hf e).grows hgrows.ready) hnext
      rw [hrun] at h
      exact tryCatch_of_error h f

theorem concluded_hardened (r : EStateM.Result Exit Game Reason) (strict : Value) :
    concluded (onState (·.hardened strict) r) = onState (·.hardened strict) (concluded r) := by
  cases r with
  | ok reason k => rfl
  | error e k => cases e <;> rfl

theorem output_of_scripted (walkVerb : Value) (echo : Bool) (lines : List Value)
    (start : Value) (g : Game) :
    (after (scripted walkVerb echo lines start) g).diagnostics =
        (after (session Play.exec (resolve walkVerb) (.script echo) lines start) g).diagnostics ∧
      (after (scripted walkVerb echo lines start) g).written =
        (after (session Play.exec (resolve walkVerb) (.script echo) lines start) g).written := by
  rw [scripted, after, after, run_eq]
  cases session Play.exec (resolve walkVerb) (.script echo) lines start g with
  | ok reason k => exact ⟨rfl, rfl⟩
  | error e k => cases e <;> exact ⟨rfl, rfl⟩

/-- Strictness only makes a failure of the first report. -/
theorem strictness_stops_at_first_report :
    (∀ (config : Config) (g : Game), Game.start config = .ok g → g.Ready) ∧
    (∀ g : Game, g.Ready → (after installStandardVerbs g).Ready ∧ ∀ w : World.Spec,
      (after w.install g).Ready) ∧
    ∀ (g : Game) (strict : Value), g.Ready → g.config.strict.truthy = false → strict.truthy →
      ∀ (walkVerb : Value) (echo : Bool) (lines : List Value) (start : Value),
        ∃ added, (after (scripted walkVerb echo lines start) g).diagnostics =
          g.diagnostics ++ added ∧
          (added = [] → scripted walkVerb echo lines start (g.hardened strict) =
            onState (·.hardened strict) (scripted walkVerb echo lines start g)) ∧
          ∀ d ds, added = d :: ds → ∃ f k,
            scripted walkVerb echo lines start (g.hardened strict) = .error (.fault f) k ∧
              f.isAuthoring ∧ f.text = d ∧
            k.written.toList <+: (after (scripted walkVerb echo lines start) g).written.toList := by
  refine ⟨fun _ _ ↦ ready_of_start, fun g hg ↦ ?_,
    fun g strict hg hrelaxed hs walkVerb echo lines start ↦ ?_⟩
  · exact ⟨(Blind.installStandardVerbs.grows hg).ready, fun w ↦ ((Blind.install w).grows hg).ready⟩
  have hblind := Blind.session walkVerb echo lines start
  obtain ⟨hdiagnostics, hwritten⟩ := output_of_scripted walkVerb echo lines start g
  obtain ⟨added, hadded⟩ := (hblind.grows hg).diagnostics
  refine ⟨added, hdiagnostics.trans hadded.symm, ?_⟩
  cases hblind.strictly hs hg hrelaxed with
  | same hnone hrun =>
    rw [← hadded] at hnone
    have hempty : added = [] := List.append_right_eq_self.1 hnone
    subst hempty
    refine ⟨fun _ ↦ ?_, nofun⟩
    rw [scripted, run_eq, hrun, concluded_hardened, run_eq]
  | @fails f k hf hrun hfirst hprefix =>
    rw [← hadded, List.prefix_append_right_inj] at hfirst
    obtain ⟨rest, rfl⟩ := hfirst
    refine ⟨nofun, fun d ds h ↦ ⟨f, k, ?_, hf, (List.cons.inj h).1, hwritten ▸ hprefix⟩⟩
    rw [scripted, run_eq, hrun]
    rfl

/-- The tent cannot be walked into, and that is a report or a failure. -/
theorem strict_tent_fails :
    tent.Ready ∧ tent.config.strict.truthy = false ∧
      ∃ f k, scripted (.text "WALK") true [.text "north"] .none (tent.hardened (.bool true)) =
        .error (.fault f) k ∧
        f.isAuthoring ∧ f.text = "moving PLAYER into TENT would create a containment cycle" ∧
        k.written.toList <+:
          (after (scripted (.text "WALK") true [.text "north"] .none) tent).written.toList := by
  have hready : tent.Ready := by
    refine (strictness_stops_at_first_report.2.1 bareTent ⟨nofun, fun e he ↦ ?_⟩).1
    have hactions : ∀ e ∈ bareTent.store.records, e.2.action.isNone := by decide +kernel
    exact .inl (hactions e he)
  have hrelaxed : tent.config.strict.truthy = false := by decide +kernel
  have hdiagnostics :
      (after (scripted (.text "WALK") true [.text "north"] .none) tent).diagnostics =
      ["moving PLAYER into TENT would create a containment cycle"] := by decide +kernel
  obtain ⟨added, hadded, -, hfirst⟩ :=
    strictness_stops_at_first_report.2.2 tent (.bool true) hready hrelaxed rfl
    (.text "WALK") true [.text "north"] .none
  have hnone : tent.diagnostics = [] := by decide +kernel
  rw [hnone, List.nil_append] at hadded
  exact ⟨hready, hrelaxed, hfirst _ [] (hadded.symm.trans hdiagnostics)⟩

end Play

end Fable
