import Fable.Proofs.Steps

namespace Fable

theorem StandardVerb.tag_injective {v w : StandardVerb} (h : v.tag = w.tag) : v = w := by
  cases v <;> cases w <;> simp_all [tag]

namespace Game

def Knows (g : Game) (v : StandardVerb) : Prop :=
  ∃ r : Routine, g.routines.find? (.text ("V-" ++ v.tag)) = some (.routine r) ∧ r.body = .verb v

/-- Everything but the tables of verbs and routines is as it was. -/
structure Equipped (g h : Game) : Prop where
  config : h.config = g.config
  store : h.store = g.store
  globals : h.globals = g.globals
  written : h.written = g.written
  prompts : h.prompts = g.prompts
  knows : ∀ v, g.Knows v → h.Knows v
  only : g.OnlyVerbs → h.OnlyVerbs

structure Offerable (g : Game) : Prop where
  winner : g.store.equal (g.global "WINNER") (g.global "PLAYER") = false →
    (g.global "WINNER").hashable
  here : (g.global "HERE").hashable

/-- The command comes to the routine of the standard verb, as nothing else can take it. -/
structure Leads (g : Game) (v : StandardVerb) (verb direct indirect : Value) :
    Prop extends Offerable g where
  actionless : g.store.Actionless
  knows : g.Knows v
  tag : (g.verbTag verb).string? = some v.tag
  verb : verb.hashable
  direct : direct.hashable
  indirect : indirect.hashable

theorem isDefined_of_inScope {g : Game} {x : Value} (hx : g.inScope x) : g.store.isDefined x := by
  rw [inScope, Bool.or_eq_true] at hx
  exact hx.elim (Store.isDefined_of_visible _) (Store.isDefined_of_visible _)

theorem Equipped.trans {g h k : Game} (hg : g.Equipped h) (hh : h.Equipped k) : g.Equipped k where
  config := hh.config.trans hg.config
  store := hh.store.trans hg.store
  globals := hh.globals.trans hg.globals
  written := hh.written.trans hg.written
  prompts := hh.prompts.trans hg.prompts
  knows v hv := hh.knows v (hg.knows v hv)
  only ho := hh.only (hg.only ho)

end Game

namespace Play

open Runs Game

variable {g h : Game}

theorem registerVerbs_run (names : List (String × StandardVerb)) (g : Game) :
    ∃ h, (names.forM fun (name, verb) ↦
      discard <| registerVerb (.text name) (.text verb.tag) : Play Unit) g = .ok () h ∧
        g.Equipped h := by
  induction names generalizing g with
  | nil => exact ⟨g, rfl, rfl, rfl, rfl, rfl, rfl, fun _ hv ↦ hv, id⟩
  | cons e names ih =>
    let tag : Value := if (Value.text e.2.tag).truthy then .text e.2.tag else .text e.1
    let k : Game := { g with verbs := Table.insert g.verbs (.text e.1) tag }
    have hone : discard (registerVerb (.text e.1) (.text e.2.tag)) g = .ok () k := rfl
    obtain ⟨h, hrun, heq⟩ := ih k
    exact ⟨h, (bind_of_ok hone _).trans hrun, heq.config, heq.store, heq.globals,
      heq.written, heq.prompts, heq.knows, heq.only⟩

theorem registerVerbRoutine_run (v : StandardVerb) (g : Game) :
    ∃ h, registerVerbRoutine v g = .ok () h ∧ g.Equipped h ∧ h.Knows v := by
  let r : Routine := { name := v.routineName, stamp := g.stamp, body := .verb v }
  let k : Game := { g with
    stamp := g.stamp + 1, routines := g.routines.insert (.text ("V-" ++ v.tag)) (.routine r) }
  have hfind (name : Value) : k.routines.find? name =
      if some ("V-" ++ v.tag) = name.string? then some (.routine r) else g.routines.find? name :=
    Table.find?_insert g.routines (show (Value.text ("V-" ++ v.tag)).isText from rfl) name
      (.routine r)
  have hknows : k.Knows v := ⟨r, (hfind _).trans (if_pos rfl), rfl⟩
  refine ⟨k, rfl, ⟨rfl, rfl, rfl, rfl, rfl, fun w hw ↦ ?_, fun ho name q hq ↦ ?_⟩, hknows⟩
  · by_cases hvw : v = w
    · exact hvw ▸ hknows
    · obtain ⟨q, hq, hbody⟩ := hw
      have hne : some ("V-" ++ v.tag) ≠ (Value.text ("V-" ++ w.tag)).string? := fun he ↦
        hvw (StandardVerb.tag_injective ((String.append_right_inj _).1 (Option.some.inj he)))
      exact ⟨q, (hfind _).trans ((if_neg hne).trans hq), hbody⟩
  · rw [hfind] at hq
    split at hq
    · exact ⟨r, v, (Option.some.inj hq).symm, rfl⟩
    · exact ho name q hq

theorem registerRoutines_run (vs : List StandardVerb) (g : Game) :
    ∃ h, vs.forM registerVerbRoutine g = .ok () h ∧ g.Equipped h ∧ ∀ v ∈ vs, h.Knows v := by
  induction vs generalizing g with
  | nil => exact ⟨g, rfl, ⟨rfl, rfl, rfl, rfl, rfl, fun _ hv ↦ hv, id⟩, by simp⟩
  | cons v vs ih =>
    obtain ⟨k, hone, hgk, hv⟩ := registerVerbRoutine_run v g
    obtain ⟨h, hrun, hkh, hvs⟩ := ih k
    refine ⟨h, (bind_of_ok hone _).trans hrun, hgk.trans hkh, ?_⟩
    simp only [List.mem_cons, forall_eq_or_imp]
    exact ⟨hkh.knows v hv, hvs⟩

/-- Once the standard verbs are installed all their routines are registered, and no others in a game
that had none. -/
theorem installStandardVerbs_run (g : Game) :
    ∃ h, installStandardVerbs g = .ok () h ∧ g.Equipped h ∧ ∀ v, h.Knows v := by
  obtain ⟨k, hk, hgk⟩ := registerVerbs_run StandardVerb.names g
  obtain ⟨h, hh, hkh, hknows⟩ := registerRoutines_run StandardVerb.all k
  refine ⟨h, (bind_of_ok hk _).trans hh, hgk.trans hkh, fun v ↦ hknows v ?_⟩
  cases v <;> decide

theorem store_installed (g : Game) : (after installStandardVerbs g).store = g.store := by
  obtain ⟨h, hrun, heq, -⟩ := installStandardVerbs_run g
  rw [after_of_ok hrun, heq.store]

theorem onlyVerbs_installed (hg : g.OnlyVerbs) : (after installStandardVerbs g).OnlyVerbs := by
  obtain ⟨h, hrun, heq, -⟩ := installStandardVerbs_run g
  rw [after_of_ok hrun]
  exact heq.only hg

theorem leads_of_installed {v : StandardVerb} {verb direct indirect : Value}
    (ha : g.store.Actionless) (ho : g.Offerable)
    (htag : ((after installStandardVerbs g).verbTag verb).string? = some v.tag) (hv : verb.hashable)
    (hd : direct.hashable) (hi : indirect.hashable) :
    (after installStandardVerbs g).Leads v verb direct indirect := by
  obtain ⟨h, hrun, heq, hknows⟩ := installStandardVerbs_run g
  rw [after_of_ok hrun] at htag ⊢
  have hglobal (name : String) : h.global name = g.global name := by
    rw [Game.global, heq.globals, Game.global]
  refine ⟨⟨fun he ↦ ?_, ?_⟩, heq.store ▸ ha, hknows v, htag, hv, hd, hi⟩
  · rw [heq.store, hglobal, hglobal] at he
    rw [hglobal]
    exact ho.winner he
  · rw [hglobal]
    exact ho.here

theorem applyAction_of_actionless (exec : Exec) (ha : g.store.Actionless)
    {id : Value} (hid : id.hashable) (message : Value) :
    applyAction exec id message g = .ok .none g := by
  rw [applyAction, bind_of_ok (demand_of_hashable hid g), Runs.get_bind]
  cases hr : g.store.find? id with
  | none => rfl
  | some r =>
    simp only [ha.isNone hr]
    rfl

theorem offerTo_of_actionless (exec : Exec) (ha : g.store.Actionless)
    {id : Value} (hid : id.hashable) :
    offerTo exec id g = .ok .none g := by
  unfold offerTo
  split
  · rfl
  · exact applyAction_of_actionless exec ha hid _

theorem firstTaken_of_none {ps : List (Play Value)} (hps : ∀ p ∈ ps, p g = .ok .none g)
    (last : Play Value) : firstTaken ps last g = last g := by
  induction ps with
  | nil => rfl
  | cons p ps ih =>
    rw [firstTaken, bind_of_ok (hps p (by simp))]
    exact ih fun q hq ↦ hps q (by simp [hq])

theorem offer_of_actionless (exec : Exec) (ha : g.store.Actionless) (ho : g.Offerable)
    {direct indirect : Value} (hd : direct.hashable) (hi : indirect.hashable) (tag : Value) :
    offer exec tag direct indirect g = offerVerb exec tag g := by
  refine firstTaken_of_none (fun p hp ↦ ?_) _
  simp only [List.mem_cons, List.not_mem_nil, or_false] at hp
  rcases hp with rfl | rfl | rfl | rfl
  · rw [Runs.get_bind, Runs.get_bind, Runs.get_bind]
    cases he : g.store.equal (g.global "WINNER") (g.global "PLAYER") with
    | true => rfl
    | false => exact applyAction_of_actionless exec ha (ho.winner he) _
  · exact applyAction_of_actionless exec ha ho.here _
  · exact offerTo_of_actionless exec ha hi
  · exact offerTo_of_actionless exec ha hd

theorem offerVerb_of_routine {tag : Value} {t : String} {r : Routine} {v : StandardVerb}
    (ht : g.store.text tag = .ok t) (hr : g.routines.find? (.text ("V-" ++ t)) = some (.routine r))
    (hbody : r.body = .verb v) :
    offerVerb Play.exec tag g = boundary (standardVerb innerExec v) g := by
  have hcontains : g.routines.contains (.text ("V-" ++ t)) := by
    obtain ⟨e, he, -⟩ := Option.map_eq_some_iff.1 hr
    have hkey := List.find?_some he
    exact List.any_eq_true.2 ⟨e, List.mem_of_find?_eq_some he, hkey⟩
  have hroutine : routine (.text ("V-" ++ t)) g = .ok (.routine r) g := by
    change EStateM.Result.ok ((g.routines.find? (.text ("V-" ++ t))).getD .none) g = _
    rw [hr]
    rfl
  rw [offerVerb, bind_of_ok (text_of_ok ht), Runs.get_bind, if_pos hcontains,
    call, bind_of_ok hroutine, exec_of_verb hbody]
  rfl

theorem offerVerb_of_knows {v : StandardVerb} (hv : g.Knows v) {tag : Value}
    (htag : tag.string? = some v.tag) :
    offerVerb Play.exec tag g = boundary (standardVerb innerExec v) g := by
  obtain ⟨r, hr, hbody⟩ := hv
  exact offerVerb_of_routine (Store.text_of_string? htag) hr hbody

variable {v : StandardVerb} {verb direct indirect : Value}

theorem perform_of_leads (hl : g.Leads v verb direct indirect) :
    perform Play.exec verb direct indirect g = (do
      let handled ← boundary (standardVerb innerExec v)
      discard <| applyAction Play.exec ((← get).global "HERE") (.message .after)
      pure handled.truthy : Play Bool) (g.asked (g.verbTag verb) direct indirect) := by
  let k := g.asked (g.verbTag verb) direct indirect
  have hplayer : k.global "PLAYER" = g.global "PLAYER" :=
    global_asked _ _ _ _ (by decide) (by decide) (by decide)
  have ho : k.Offerable := by
    refine ⟨fun he ↦ ?_, ?_⟩
    · rw [winner_asked] at he ⊢
      rw [hplayer] at he
      exact hl.winner he
    · rw [here_asked]
      exact hl.here
  have hoffer : offer Play.exec (g.verbTag verb) direct indirect k =
      boundary (standardVerb innerExec v) k := by
    rw [offer_of_actionless (g := k) Play.exec hl.actionless ho hl.direct hl.indirect]
    exact offerVerb_of_knows (g := k) hl.knows hl.tag
  rw [perform, bind_of_ok (verbTag_of_hashable hl.verb g)]
  change (offer Play.exec (g.verbTag verb) direct indirect >>= _) k = _
  cases hb : boundary (standardVerb innerExec v) k with
  | ok a m => rw [bind_of_ok (hoffer.trans hb), bind_of_ok hb]
  | error e m => rw [bind_of_error (hoffer.trans hb), bind_of_error hb]

theorem boundary_of_signal {p : Play Value} {s : Signal} (hp : p g = .error (.signal s) h) :
    boundary p g = .ok s.value h := by
  rw [boundary, tryCatch_of_error hp]
  rfl

theorem boundary_of_exit {p : Play Value} {e : Exit} (hp : p g = .error e h)
    (he : ∀ s, e ≠ .signal s) : boundary p g = .error e h := by
  rw [boundary, tryCatch_of_error hp]
  cases e with
  | signal s => exact absurd rfl (he s)
  | fault f => rfl
  | ended r => rfl

/-- A routine that is left early has an answer, which the command takes over. -/
theorem perform_of_signal (hl : g.Leads v verb direct indirect) {s : Signal}
    (hrun : standardVerb innerExec v (g.asked (g.verbTag verb) direct indirect) =
      .error (.signal s) h)
    (ha : h.store.Actionless) (hh : (h.global "HERE").hashable) :
    perform Play.exec verb direct indirect g = .ok s.value.truthy h := by
  rw [perform_of_leads hl, bind_of_ok (boundary_of_signal hrun), Runs.get_bind,
    bind_of_ok (discard_of_ok (applyAction_of_actionless Play.exec ha hh _))]
  rfl

theorem perform_ne_false_of_signal (hl : g.Leads v verb direct indirect) {s : Signal} {k : Game}
    (hrun : standardVerb innerExec v (g.asked (g.verbTag verb) direct indirect) =
      .error (.signal s) k)
    (hs : s.value.truthy) : perform Play.exec verb direct indirect g ≠ .ok false h := by
  rw [perform_of_leads hl, bind_of_ok (boundary_of_signal hrun), Runs.get_bind, hs]
  intro hok
  obtain ⟨u, m, -, hleft⟩ := of_bind_ok hok
  cases hleft

/-- Any other exit is one from the command, too. -/
theorem perform_of_exit (hl : g.Leads v verb direct indirect) {e : Exit}
    (hrun : standardVerb innerExec v (g.asked (g.verbTag verb) direct indirect) = .error e h)
    (he : ∀ s, e ≠ .signal s) : perform Play.exec verb direct indirect g = .error e h := by
  rw [perform_of_leads hl, bind_of_error (boundary_of_exit hrun he)]

theorem directInScope_of_inScope {x : Value} (hx : g.global "PRSO" = x) (hhash : x.hashable)
    (hnone : x.isNone = false) (hscope : g.inScope x) (verb : String) :
    directInScope verb g = .ok x g := by
  rw [directInScope, Runs.get_bind]
  simp only [hx, hnone, Bool.false_eq_true, if_false]
  rw [bind_of_ok (inScope_of_hashable hhash g), hscope]
  rfl

/-- An object in scope that can be taken and is not held is weighed, and then moved. -/
theorem take_eq_of_inScope {x : Value} (hx : g.global "PRSO" = x) (hhash : x.hashable)
    (hnone : x.isNone = false) (hscope : g.inScope x)
    (hfree : Value.same (g.store.parent x) (g.global "WINNER") = false)
    (hflag : g.store.hasFlag x takeableFlag) :
    take g = (do
      if ← tooHeavy (g.global "WINNER") x then
        tell [.text "Your load is too heavy.", newline]
        returnTrue
      let firstTouch := !(← get).store.hasFlag x touchedFlag
      if !(← move x (g.global "WINNER")) then
        tell [.text "You can't take the ", desc, x, .text " while you are in it.", newline]
        returnFalse
      taken x firstTouch : Play Value) g := by
  rw [take, bind_of_ok (directInScope_of_inScope hx hhash hnone hscope "take"),
    Runs.get_bind, Runs.get_bind]
  simp only [hfree, Bool.false_eq_true, if_false]
  rw [Runs.get_bind]
  simp only [hflag, Bool.not_true, Bool.false_eq_true, if_false]
  rfl

end Play

end Fable
