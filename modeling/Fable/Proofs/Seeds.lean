import Fable.Proofs.Scripted
import Fable.Proofs.NewGame

namespace Fable

namespace Game

def SameLine (v w : Value) : Prop := v = w ∨ v ∈ StandardVerb.refusals ∧ w ∈ StandardVerb.refusals

/-- The same game but for the seed, the generator, the log, and which refusals have been written. -/
structure Alike (g h : Game) : Prop where
  same : h = { g with
    config := { g.config with seed := h.config.seed }
    generator := h.generator
    written := h.written
    log := h.log }
  written : List.Forall₂ SameLine g.written.toList h.written.toList
  whole : g.generator.words.size = Twister.size
  whole' : h.generator.words.size = Twister.size

variable {g h : Game}

theorem Alike.wrote (hgh : g.Alike h) {vs ws : List Value} (hvs : List.Forall₂ SameLine vs ws) :
    (g.wrote vs).Alike (h.wrote ws) := by
  refine ⟨?_, ?_, hgh.whole, hgh.whole'⟩
  · rw [hgh.same]
    rfl
  · rw [toList_wrote, toList_wrote]
    exact List.rel_append hgh.written hvs

theorem Alike.noted (hgh : g.Alike h) (e : Event) : (g.noted e).Alike (h.noted e) := by
  refine ⟨?_, hgh.written, hgh.whole, hgh.whole'⟩
  rw [hgh.same]
  rfl

theorem Alike.result (hgh : g.Alike h) (reason : Reason) : h.result reason = g.result reason := by
  rw [hgh.same]
  rfl

theorem Alike.eq_veiled (hgh : g.Alike h) : h = g.veiled h.veil := by
  rw [hgh.same]
  rfl

theorem Alike.veiled {k : Game} (hgh : g.Alike h) (hk : k.veil = g.veil) :
    k.Alike (k.veiled h.veil) := by
  have hstrict : h.veil.strict = k.config.strict :=
    (congrArg (·.config.strict) hgh.same).trans (congrArg (·.strict) hk.symm)
  have hdiagnostics : h.veil.diagnostics = k.diagnostics :=
    (congrArg (·.diagnostics) hgh.same).trans (congrArg (·.diagnostics) hk.symm)
  have hwritten : k.written = g.written := congrArg (·.written) hk
  have hgenerator : k.generator = g.generator := congrArg (·.generator) hk
  refine ⟨?_, ?_, ?_, hgh.whole'⟩
  · simp only [Game.veiled, hstrict, hdiagnostics]
  · rw [hwritten]
    exact hgh.written
  · rw [hgenerator]
    exact hgh.whole

theorem generator_of_start {config : Config} (hg : Game.start config = .ok g) :
    Twister.ofValue config.seed = .ok g.generator := by
  obtain ⟨hp, -⟩ := exists_eq_of_start hg
  have hcleared : Store.cleared {} = {} := rfl
  rw [Game.start, Play.reset, Runs.get_bind, Runs.get_bind] at hg
  simp only [hcleared, Store.define_player hp] at hg
  cases hseed : Twister.ofValue config.seed with
  | error f =>
    rw [hseed] at hg
    cases hg
  | ok t =>
    rw [hseed] at hg
    cases hg
    rfl

theorem alike_of_start {config : Config} {seed seed' : Value}
    (hg : Game.start { config with seed := seed } = .ok g)
      (hh : Game.start { config with seed := seed' } = .ok h) : g.Alike h := by
  have hwhole := Twister.size_of_ofValue (generator_of_start hg)
  have hwhole' := Twister.size_of_ofValue (generator_of_start hh)
  obtain ⟨-, generator, log, rfl⟩ := exists_eq_of_start hg
  obtain ⟨-, generator', log', rfl⟩ := exists_eq_of_start hh
  exact ⟨rfl, .nil, hwhole, hwhole'⟩

end Game

namespace Play

open Runs Game

variable {α : Type} {p : Play α} {g h : Game}

def Agree (p : Play α) (g h : Game) : Prop :=
  ∃ k, p h = onState (fun _ ↦ k) (p g) ∧ (after p g).Alike k

theorem Agree.of_ok {a : α} {k k' : Game} (hg : p g = .ok a k)
    (hh : p h = .ok a k') (hk : k.Alike k') :
    Agree p g h := by
  refine ⟨k', ?_, ?_⟩
  · rw [hh, hg]
    rfl
  · rwa [after_of_ok hg]

theorem Agree.of_error {e : Exit} {k k' : Game} (hg : p g = .error e k)
    (hh : p h = .error e k') (hk : k.Alike k') :
    Agree p g h := by
  refine ⟨k', ?_, ?_⟩
  · rw [hh, hg]
    rfl
  · rwa [after_of_error hg]

theorem Agree.alike (hp : Agree p g h) : (after p g).Alike (after p h) := by
  obtain ⟨k, hrun, hk⟩ := hp
  have hafter : after p h = k := by
    rw [after, hrun]
    cases p g with
    | ok a l => rfl
    | error e l => rfl
  rwa [hafter]

/-- By induction on the parts of a computation. A refusal is the only part that draws, and it writes
one refusal from each of the two games. -/
theorem Blind.agree (hp : Blind p) (hg : g.Ready) (hgh : g.Alike h) : Agree p g h := by
  induction hp generalizing g h with
  | @unseen _ p hsame hready =>
    have hrun := hsame g h.veil
    rw [← hgh.eq_veiled] at hrun
    refine ⟨(after p g).veiled h.veil, ?_, hgh.veiled (veil_after hsame g)⟩
    rw [hrun, after]
    cases p g with
    | ok a k => rfl
    | error e k => rfl
  | @look _ f hsame hf ih =>
    have hlook := hsame g h.veil
    rw [← hgh.eq_veiled] at hlook
    obtain ⟨k, hrun, hk⟩ := ih g hg hg hgh
    refine ⟨k, ?_, hk⟩
    rw [get_bind, get_bind, hlook, hrun]
  | @bind _ _ p f hp hf ihp ihf =>
    obtain ⟨k', hrun', hk⟩ := ihp hg hgh
    have hready := (hp.grows hg).ready
    cases hrun : p g with
    | ok a k =>
      rw [after_of_ok hrun] at hk hready
      rw [hrun] at hrun'
      obtain ⟨l, hl, hal⟩ := ihf a hready hk
      refine ⟨l, ?_, ?_⟩
      · rw [bind_of_ok hrun', bind_of_ok hrun, hl]
      · rwa [after, bind_of_ok hrun]
    | error e k =>
      rw [after_of_error hrun] at hk
      rw [hrun] at hrun'
      exact .of_error (bind_of_error hrun f) (bind_of_error hrun' f) hk
  | write v => exact .of_ok rfl rfl (hgh.wrote (.cons (.inl rfl) .nil))
  | note e => exact .of_ok rfl rfl (hgh.noted e)
  | @report f hf =>
    have hstrict : h.config.strict = g.config.strict := congrArg (·.config.strict) hgh.same
    cases hs : g.config.strict.truthy with
    | false =>
      have hs' : h.config.strict.truthy = false := hstrict ▸ hs
      refine .of_ok (report_of_relaxed hs f) (report_of_relaxed hs' f)
        ⟨?_, hgh.written, hgh.whole, hgh.whole'⟩
      rw [hgh.same]
      rfl
    | true =>
      have hs' : h.config.strict.truthy := hstrict ▸ hs
      exact .of_error (report_of_strict hs f) (report_of_strict hs' f) hgh
  | refuse =>
    have hseq : (Value.list StandardVerb.refusals).sequence? = some StandardVerb.refusals := rfl
    have hne : StandardVerb.refusals ≠ [] := List.cons_ne_nil _ _
    have hlength : StandardVerb.refusals.length < 2 ^ 64 := by decide
    obtain ⟨v, t, hv, hmem, ht⟩ := Draw.exists_pickOne hseq hne hlength hgh.whole
    obtain ⟨w, u, hw, hmem', hu⟩ := Draw.exists_pickOne hseq hne hlength hgh.whole'
    refine .of_ok (refuse_of_ok hv) (refuse_of_ok hw) (Alike.wrote ?_ ?_)
    · refine ⟨?_, hgh.written, ht, hu⟩
      rw [hgh.same]
    · exact .cons (.inr ⟨hmem, hmem'⟩) (.cons (.inl rfl) .nil)
  | @rescue _ p f hp hf hfault ihp ihf =>
    obtain ⟨k', hrun', hk⟩ := ihp hg hgh
    have hready := (hp.grows hg).ready
    cases hrun : p g with
    | ok a k =>
      rw [after_of_ok hrun] at hk
      rw [hrun] at hrun'
      exact .of_ok (tryCatch_of_ok hrun f) (tryCatch_of_ok hrun' f) hk
    | error e k =>
      rw [after_of_error hrun] at hk hready
      rw [hrun] at hrun'
      obtain ⟨l, hl, hal⟩ := ihf e hready hk
      refine ⟨l, ?_, ?_⟩
      · rw [tryCatch_of_error hrun', tryCatch_of_error hrun, hl]
      · rwa [after, tryCatch_of_error hrun]

theorem agree_scripted {walkVerb : Value} {echo : Bool} {lines : List Value} {start : Value}
    (hsession : Agree (session Play.exec (resolve walkVerb) (.script echo) lines start) g h) :
    Agree (scripted walkVerb echo lines start) g h := by
  obtain ⟨k, hrun, hk⟩ := hsession
  have hg : scripted walkVerb echo lines start g = _ := run_eq
  have hh : scripted walkVerb echo lines start h = _ := run_eq
  rw [hrun] at hh
  cases hl : session Play.exec (resolve walkVerb) (.script echo) lines start g with
  | ok reason l =>
    rw [hl] at hg hh
    rw [after_of_ok hl] at hk
    exact .of_ok hg (hk.result reason ▸ hh) (hk.noted _)
  | error e l =>
    rw [hl] at hg hh
    rw [after_of_error hl] at hk
    cases e with
    | ended reason => exact .of_ok hg (hk.result reason ▸ hh) (hk.noted _)
    | signal s => exact .of_error hg hh hk
    | fault f => exact .of_error hg hh hk

/-- With any two seeds, and any two states of the generator, the same happens. -/
theorem seed_shows_only_in_refusals :
    (∀ (config : Config) (seed seed' : Value) (g h : Game),
      Game.start { config with seed := seed } = .ok g →
      Game.start { config with seed := seed' } = .ok h → g.Ready ∧ g.Alike h) ∧
    ∀ g h : Game, g.Ready → g.Alike h →
      (∀ w : World.Spec, Agree (Cli.prepare w) g h ∧ (after (Cli.prepare w) g).Ready) ∧
      ∀ (walkVerb : Value) (echo : Bool) (lines : List Value) (start : Value),
        Agree (scripted walkVerb echo lines start) g h := by
  refine ⟨fun config seed seed' g h hg hh ↦ ⟨ready_of_start hg, alike_of_start hg hh⟩,
    fun g h hg hgh ↦ ⟨?_, ?_⟩⟩
  · intro w
    have hprepare := Blind.prepare w
    exact ⟨hprepare.agree hg hgh, (hprepare.grows hg).ready⟩
  · intro walkVerb echo lines start
    exact agree_scripted ((Blind.session walkVerb echo lines start).agree hg hgh)

def bareGallery (generator : Twister) : Game where
  store := .history [
    .define (.text "GALLERY") {},
    .define (.text "STATUE")
      { parent := .text "GALLERY", fields := [(.synonyms, .list [.text "STATUE"])] },
    .define (.text "PLAYER") { parent := .text "GALLERY" }]
  globals := [(.text "WINNER", .text "PLAYER"), (.text "HERE", .text "GALLERY")]
  generator

/-- With other words in the generator the statue is refused with other words. -/
theorem gallery_with_two_generators :
    (∃ g h : Game, Game.start { seed := .int 1 } = .ok g ∧
      Game.start { seed := .int 2 } = .ok h ∧ g.Alike h) ∧
    let g := after installStandardVerbs (bareGallery ⟨Array.replicate Twister.size 1, 0⟩)
    let h := after installStandardVerbs (bareGallery ⟨Array.replicate Twister.size 0x82347654, 300⟩)
    g.Ready ∧ g.Alike h ∧ Agree (scripted (.text "WALK") true [.text "take statue"] .none) g h := by
  have hseed (n : ℤ) : ∃ g, Game.start { seed := .int n } = .ok g :=
    exists_start _ rfl (t := .ofSeed n) rfl
  obtain ⟨one, hone⟩ := hseed 1
  obtain ⟨two, htwo⟩ := hseed 2
  refine ⟨⟨one, two, hone, htwo, (seed_shows_only_in_refusals.1 {} _ _ one two hone htwo).2⟩, ?_⟩
  intro g h
  have hactions (t : Twister) : ∀ e ∈ (bareGallery t).store.records, e.2.action.isNone :=
    (by decide +kernel : ∀ e ∈ (bareGallery default).store.records, e.2.action.isNone)
  have hbare (t : Twister) : (bareGallery t).Ready := ⟨nofun, fun e he ↦ .inl (hactions t e he)⟩
  have hready : g.Ready := (Blind.installStandardVerbs.grows (hbare _)).ready
  have hsame : (bareGallery ⟨Array.replicate Twister.size 1, 0⟩).Alike
      (bareGallery ⟨Array.replicate Twister.size 0x82347654, 300⟩) :=
    ⟨rfl, .nil, Array.size_replicate, Array.size_replicate⟩
  have hgh : g.Alike h := (Blind.installStandardVerbs.agree (hbare _) hsame).alike
  exact ⟨hready, hgh, (seed_shows_only_in_refusals.2 g h hready hgh).2 (.text "WALK") true
    [.text "take statue"] .none⟩

end Play

end Fable
