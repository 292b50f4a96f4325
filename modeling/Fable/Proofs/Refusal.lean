import Fable.Proofs.Signals
import Fable.Proofs.Standard

namespace Fable

namespace Game

/-- The verb is about to move the first object into the second. -/
inductive Attempts (g : Game) : StandardVerb → Value → Value → Prop
  | take {x : Value} (hx : g.global "PRSO" = x) (hscope : g.inScope x)
      (hfree : Value.same (g.store.parent x) (g.global "WINNER") = false)
      (hflag : g.store.hasFlag x Play.takeableFlag)
      (hlight : ∃ h, Play.tooHeavy (g.global "WINNER") x g = .ok false h) :
      Attempts g .take x (g.global "WINNER")
  | drop {x : Value} (hx : g.global "PRSO" = x)
      (hheld : Value.same (g.store.parent x) (g.global "WINNER")) :
      Attempts g .drop x (g.global "HERE")
  | walk {room : Value} (hroom : Play.destination g = .ok room g)
      (hdefined : g.store.isDefined room) :
      Attempts g .walk (g.global "WINNER") room

/-- All is as it was, but for what the command is about and for one more diagnostic. -/
structure Unmoved (g h : Game) : Prop where
  store : h.store = g.store
  global : ∀ name, name ≠ "PRSA" → name ≠ "PRSO" → name ≠ "PRSI" → h.global name = g.global name
  dead : h.dead = g.dead
  won : h.won = g.won
  diagnostics : ∃ d, h.diagnostics = g.diagnostics ++ [d]

structure Warned (g h : Game) : Prop extends g.Told h where
  diagnostics : ∃ d, h.diagnostics = g.diagnostics ++ [d]

theorem Warned.unmoved {g h : Game} {tag direct indirect : Value}
    (hw : (g.asked tag direct indirect).Warned h) : g.Unmoved h where
  store := hw.store
  global name ha hd hi := by rw [hw.global, global_asked g tag direct indirect ha hd hi]
  dead := hw.dead
  won := hw.won
  diagnostics := hw.diagnostics

theorem warned_reported (g : Game) (f : Fault) (before after : List Value) :
    g.Warned (((g.wrote before).reported f).wrote after) :=
  ⟨⟨rfl, rfl, rfl, rfl, rfl, rfl, rfl⟩, f.text, rfl⟩

end Game

namespace Play

open Runs Game

variable {g : Game} {x p : Value} {a b : String} {t : Store}

theorem move_of_cycle (hstrict : g.config.strict.truthy = false)
    (hs : Store.move x p g.store = .error (.cycle a b) t) :
    move x p g = .ok false (g.reported (.cycle a b)) := by
  rw [move_of_error hs]
  exact bind_of_ok (report_of_relaxed hstrict _) _

theorem exists_describe (s : Store) (hx : x.isText) : ∃ name, s.describe x = .ok name := by
  obtain ⟨n, hn⟩ := Value.isText_iff.1 hx
  rw [Store.describe, hn]
  dsimp only
  split
  · exact ⟨_, rfl⟩
  · exact ⟨_, rfl⟩

/-- Nothing comes of weighing but a stamp for the sum. -/
theorem of_tooHeavy {winner : Value} {heavy : Bool} {h : Game}
    (hrun : tooHeavy winner x g = .ok heavy h) :
    ∃ n, h = { g with stamp := n } := by
  obtain ⟨w, k, hweight, hrest⟩ := of_bind_ok hrun
  rw [Runs.get_bind] at hrest
  obtain ⟨load, m, hload, hless⟩ := of_bind_ok hrest
  rw [Runs.get_bind, Runs.get_bind] at hless
  obtain rfl := of_lift hless
  obtain rfl := of_lift hload
  obtain ⟨u, m, hdemand, hsum⟩ := of_bind_ok hweight
  obtain rfl := of_demand hdemand
  rw [Runs.get_bind] at hsum
  obtain ⟨total, n, htotal, hfresh⟩ := of_bind_ok hsum
  obtain rfl := of_lift htotal
  unfold fresh at hfresh
  split at hfresh <;> (cases hfresh; exact ⟨_, rfl⟩)

theorem drop_of_cycle (hx : g.global "PRSO" = x) (hxt : x.isText)
    (hheld : Value.same (g.store.parent x) (g.global "WINNER"))
    (hstrict : g.config.strict.truthy = false)
    (hs : Store.move x (g.global "HERE") g.store = .error (.cycle a b) t) :
    ∃ h, drop g = .error (.signal .returnFalse) h ∧ g.Warned h := by
  have hd := demand_of_hashable (Value.hashable_of_isText hxt) g
  have hno : (x.isNone || !Value.same (g.store.parent x) (g.global "WINNER")) = false := by
    rw [Value.isNone_eq_false_of_isText hxt, hheld]
    rfl
  refine ⟨_, ?_, warned_reported g (.cycle a b) [] [.text "You can't drop that here.", .text "\n"]⟩
  rw [drop, Runs.get_bind, Runs.get_bind]
  dsimp only
  rw [hx, bind_of_ok hd, Runs.get_bind, if_neg (by simp [hno]), Runs.get_bind,
    bind_of_ok (move_of_cycle hstrict hs)]
  exact bind_of_ok (tell_of_render rfl) _

theorem take_of_cycle (hx : g.global "PRSO" = x) (hxt : x.isText) (hscope : g.inScope x)
    (hfree : Value.same (g.store.parent x) (g.global "WINNER") = false)
    (hflag : g.store.hasFlag x takeableFlag) {k : Game}
    (hlight : tooHeavy (g.global "WINNER") x g = .ok false k)
    (hstrict : g.config.strict.truthy = false)
    (hs : Store.move x (g.global "WINNER") g.store = .error (.cycle a b) t) :
    ∃ h, take g = .error (.signal .returnFalse) h ∧ g.Warned h := by
  obtain ⟨n, rfl⟩ := of_tooHeavy hlight
  obtain ⟨name, hname⟩ := exists_describe g.store hxt
  have hmove : move x (g.global "WINNER") { g with stamp := n } =
      .ok false (Game.reported { g with stamp := n } (.cycle a b)) := move_of_cycle hstrict hs
  let k := Game.reported { g with stamp := n } (.cycle a b)
  let m := k.wrote [.text "You can't take the ", name, .text " while you are in it.", .text "\n"]
  have htell :
      tell [.text "You can't take the ", desc, x, .text " while you are in it.", newline] k =
      .ok () m := by
    refine tell_of_render ?_
    simp only [Tell.render, Tell.plain, Tell.operand, desc, newline, voice]
    rw [show k.store.describe x = .ok name from hname]
  refine ⟨m, ?_, ⟨⟨rfl, rfl, rfl, rfl, rfl, rfl, rfl⟩, (Fault.cycle a b).text, rfl⟩⟩
  rw [take_eq_of_inScope hx (Value.hashable_of_isText hxt)
    (Value.isNone_eq_false_of_isText hxt) hscope
    hfree hflag, bind_of_ok hlight, if_neg Bool.false_ne_true]
  dsimp only
  rw [Runs.get_bind, bind_of_ok hmove]
  exact bind_of_ok htell _

/-- A walk that is refused goes on if the player is in that room already, as far as the globals
say. -/
theorem walk_of_cycle (exec : Exec) {room : Value}
    (hroom : destination g = .ok room g) (hrt : room.isText) (hdefined : g.store.isDefined room)
    (hstrict : g.config.strict.truthy = false)
    (hs : Store.move (g.global "WINNER") room g.store = .error (.cycle a b) t) :
    ∃ h, g.Warned h ∧ walk exec g = (do
      if !Value.alike ((← get).global "HERE") room then returnFalse
      describeRoom false
      arrive room
      returnTrue : Play Value) h := by
  obtain ⟨name, hname⟩ := exists_describe g.store hrt
  have hd := demand_of_hashable (Value.hashable_of_isText hrt) g
  have htell : tell [desc, room, newline] g = .ok () (g.wrote [name, .text "\n"]) := by
    refine tell_of_render ?_
    simp only [Tell.render, Tell.operand, desc, newline, voice]
    rw [hname]
  have hgo : goTo exec room (g.wrote [name, .text "\n"]) =
      .ok (.bool false) ((g.wrote [name, .text "\n"]).reported (.cycle a b)) := by
    rw [goTo, Runs.get_bind]
    exact bind_of_ok (move_of_cycle (g := g.wrote [name, .text "\n"]) hstrict hs) _
  refine ⟨_, warned_reported g (.cycle a b) [name, .text "\n"] [], ?_⟩
  rw [walk, bind_of_ok hroom]
  dsimp only
  rw [if_neg (by simp [Value.isNone_eq_false_of_isText hrt]), bind_of_ok hd, Runs.get_bind,
    if_neg (by simp [hdefined]), bind_of_ok htell, bind_of_ok hgo]
  rfl

theorem walk_elsewhere_of_cycle (exec : Exec) {room : Value} (hroom : destination g = .ok room g)
    (hrt : room.isText) (hdefined : g.store.isDefined room)
    (hstrict : g.config.strict.truthy = false)
    (hs : Store.move (g.global "WINNER") room g.store = .error (.cycle a b) t)
    (helse : Value.alike (g.global "HERE") room = false) :
    ∃ h, walk exec g = .error (.signal .returnFalse) h ∧ g.Warned h := by
  obtain ⟨h, hw, hrun⟩ := walk_of_cycle exec hroom hrt hdefined hstrict hs
  refine ⟨h, ?_, hw⟩
  rw [hrun, Runs.get_bind, hw.global, helse]
  rfl

end Play

namespace Game

open Play Runs

variable {g : Game} {v : StandardVerb} {verb direct indirect x p : Value}

theorem walk_here_not_refused (hl : g.Leads .walk verb direct indirect) {h : Game}
    (hrun : Play.walk innerExec (g.asked (g.verbTag verb) direct indirect) = (do
      describeRoom false
      arrive p
      returnTrue : Play Value) h) {k : Game} :
    perform Play.exec verb direct indirect g ≠ .ok false k := by
  cases hd : describeRoom false h with
  | error e m =>
    rw [bind_of_error hd] at hrun
    rw [perform_of_exit hl hrun ((Obeys.describeRoom false).ne_signal hd)]
    nofun
  | ok u m =>
    rw [bind_of_ok hd] at hrun
    cases ha : arrive p m with
    | error e n =>
      rw [bind_of_error ha] at hrun
      rw [perform_of_exit hl hrun ((Obeys.arrive p).ne_signal ha)]
      nofun
    | ok u n =>
      rw [bind_of_ok ha] at hrun
      exact perform_ne_false_of_signal hl hrun rfl

/-- A command that attempts a move which would close a cycle is refused and does nothing else,
unless it is a walk to where the player is taken to be. -/
theorem refused_move_does_nothing_iff (hl : g.Leads v verb direct indirect)
    (hstrict : g.config.strict.truthy = false)
    (hattempt : (g.asked (g.verbTag verb) direct indirect).Attempts v x p)
    (hx : x.isText) (hp : p.isText) {t : Store}
    (hfail : Store.FailsByCycle (Store.move x p) g.store t) :
    (∃ h, perform Play.exec verb direct indirect g = .ok false h ∧ g.Unmoved h) ↔
      ¬ (v = .walk ∧ Value.alike (g.global "HERE") p) := by
  obtain ⟨a, b, hmove⟩ := hfail
  have hhere := here_asked g (g.verbTag verb) direct indirect
  have hrefused {h : Game} (hw : (g.asked (g.verbTag verb) direct indirect).Warned h)
      (hrun : standardVerb innerExec v (g.asked (g.verbTag verb) direct indirect) =
        .error (.signal .returnFalse) h) :
      ∃ h, perform Play.exec verb direct indirect g = .ok false h ∧ g.Unmoved h := by
    refine ⟨h, perform_of_signal hl hrun ?_ ?_, hw.unmoved⟩
    · rw [hw.store]
      exact hl.actionless
    · rw [hw.global, hhere]
      exact hl.here
  cases hattempt with
  | take hprso hscope hfree hflag hlight =>
    obtain ⟨k, hlight⟩ := hlight
    obtain ⟨h, hrun, hw⟩ := take_of_cycle hprso hx hscope hfree hflag hlight hstrict hmove
    exact iff_of_true (hrefused hw hrun) nofun
  | drop hprso hheld =>
    obtain ⟨h, hrun, hw⟩ := drop_of_cycle hprso hx hheld hstrict hmove
    exact iff_of_true (hrefused hw hrun) nofun
  | walk hroom hdefined =>
    cases halike : Value.alike (g.global "HERE") p with
    | false =>
      rw [← hhere] at halike
      obtain ⟨h, hrun, hw⟩ :=
        walk_elsewhere_of_cycle innerExec hroom hp hdefined hstrict hmove halike
      exact iff_of_true (hrefused hw hrun) nofun
    | true =>
      refine iff_of_false ?_ (not_not.2 ⟨rfl, rfl⟩)
      obtain ⟨h, hw, hrun⟩ := walk_of_cycle innerExec hroom hp hdefined hstrict hmove
      rw [Runs.get_bind, hw.global, hhere, halike] at hrun
      rintro ⟨k, hk, -⟩
      exact walk_here_not_refused hl hrun hk

def bareTent : Game where
  store := .history [
    .define (.text "PLAYER") {},
    .define (.text "TENT")
      { parent := .text "PLAYER", properties := .dict [(.text "NORTH", .text "TENT")] }]
  globals := [(.text "WINNER", .text "PLAYER"), (.text "PLAYER", .text "PLAYER"),
    (.text "HERE", .text "TENT")]

/-- The player carries the tent and is taken to be in it; north of it is the tent again. -/
def tent : Game := after installStandardVerbs bareTent

/-- The player cannot be moved into the tent, and yet the walk is carried out and the tent is
touched. -/
theorem walk_into_own_tent :
    (match perform Play.exec (.text "WALK") (.text "NORTH") .none tent with
      | .ok handled _ => handled
      | .error .. => false) = true ∧
    let h := after (perform Play.exec (.text "WALK") (.text "NORTH") .none) tent
    h.diagnostics = ["moving PLAYER into TENT would create a containment cycle"] ∧
      tent.store.hasFlag (.text "TENT") touchedFlag = false ∧
      h.store.hasFlag (.text "TENT") touchedFlag = true := by
  decide +kernel

theorem drop_tent_in_itself :
    let k := tent.asked (tent.verbTag (.text "DROP")) (.text "TENT") .none
    tent.Leads .drop (.text "DROP") (.text "TENT") .none ∧ tent.config.strict.truthy = false ∧
      k.Attempts .drop (.text "TENT") (k.global "HERE") ∧ (k.global "HERE").isText ∧
      Store.FailsByCycle (Store.move (.text "TENT") (k.global "HERE")) tent.store tent.store ∧
      ∃ h, perform Play.exec (.text "DROP") (.text "TENT") .none tent = .ok false h ∧
      tent.Unmoved h := by
  intro k
  have hactions : bareTent.store.Actionless := by decide +kernel
  have hoffer : bareTent.Offerable := ⟨fun _ ↦ by decide +kernel, by decide +kernel⟩
  have hleads : tent.Leads .drop (.text "DROP") (.text "TENT") .none :=
    leads_of_installed hactions hoffer (by decide +kernel) rfl rfl rfl
  have hstrict : tent.config.strict.truthy = false := by decide +kernel
  have hattempt : k.Attempts .drop (.text "TENT") (k.global "HERE") :=
    .drop (direct_asked ..) (by decide +kernel)
  have hhere : (k.global "HERE").string? = some "TENT" := by decide +kernel
  have hfind : (tent.store.find? (.text "TENT")).isSome := by decide +kernel
  have hcycle : tent.store.obstacle? (.text "TENT") (k.global "HERE") =
      some (.cycle "TENT" "TENT") :=
    Store.obstacle?_eq_cycle rfl hhere (by decide +kernel)
  have hfail :
      Store.FailsByCycle (Store.move (.text "TENT") (k.global "HERE")) tent.store tent.store := by
    obtain ⟨r, hr⟩ := Option.isSome_iff_exists.1 hfind
    exact ⟨"TENT", "TENT", by simp [Store.move, Value.hashable, hr, hcycle]⟩
  have htext := Value.isText_iff.2 ⟨"TENT", hhere⟩
  have hiff := refused_move_does_nothing_iff hleads hstrict hattempt rfl htext hfail
  exact ⟨hleads, hstrict, hattempt, htext, hfail, hiff.2 (by rintro ⟨⟨⟩, -⟩)⟩

end Game

end Fable
