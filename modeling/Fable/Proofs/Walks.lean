import Fable.Proofs.Accounts
import Fable.Proofs.Frame
import Fable.Proofs.Sights
import Fable.Proofs.Speech

namespace Fable

theorem Store.Remains.forall_mem {s t : Store} (hs : s.Remains t) {P : Record → Prop}
    (hP : ∀ r r' : Record, r.Remains r' → P r → P r') (h : ∀ e ∈ s.records, P e.2) :
    ∀ e ∈ t.records, P e.2 := by
  unfold Store.Remains at hs
  generalize s.records = as at hs h
  generalize t.records = bs at hs
  induction hs with
  | nil => exact h
  | cons he _ ih =>
    rw [List.forall_mem_cons] at h ⊢
    exact ⟨hP _ _ he.2 h.1, ih h.2⟩

namespace Game

structure Housed (g : Game) : Prop extends g.Located where
  verbs : g.OnlyVerbs
  actionless : g.store.Actionless

structure Legible (g : Game) : Prop where
  death : g.config.deathBanner.isText
  victory : g.config.victoryBanner.isText
  records : ∀ e ∈ g.store.records, e.2.Legible

/-- The command is a walk by an exit of the room, and the player can be moved to where that
leads. -/
structure Enters (g : Game) (c : Command) (room : Value) : Prop where
  verb : c.verb.hashable
  calls : g.Calls c .walk
  direction : c.direct.truthy
  exit : g.store.property (g.global "HERE") c.direct .none = room
  defined : g.store.isDefined room
  moved : ∃ s, Store.move (g.global "WINNER") room g.store = .ok () s

def deadly (g : Game) (room : Value) : Bool := (g.store.property room (.text "DEATH") .none).truthy

def winning (g : Game) (room : Value) : Bool :=
  !g.deadly room && (g.store.property room (.text "VICTORY") .none).truthy

/-- The command takes the player into a room that ends the game for this reason. -/
inductive Meets (g : Game) (c : Command) : Reason → Prop
  | death {room : Value} (henters : g.Enters c room) (hdead : g.deadly room) : Meets g c .died
  | victory {room : Value} (henters : g.Enters c room) (hwin : g.winning room) : Meets g c .won

variable {g h : Game} {c : Command} {room : Value}

theorem Steps.housed (hs : Steps g h) (hg : g.Housed) : h.Housed where
  toLocated := hg.toLocated.steps hs
  verbs name r hr := hg.verbs name r (hs.routines ▸ hr)
  actionless := hs.actionless hg.actionless

theorem Steps.legible (hs : Steps g h) (hg : g.Legible) : h.Legible := by
  have hconfig := hs.kept.config
  refine ⟨hconfig ▸ hg.death, hconfig ▸ hg.victory, ?_⟩
  refine hs.remains.store.forall_mem (fun r r' hr hlegible ↦ ?_) hg.records
  rw [hr.fields]
  exact ⟨hlegible.ldesc, hlegible.fdesc⟩

/-- The properties that decide on the end are those with which the room was defined. -/
theorem Steps.deadly (hs : Steps g h) (room : Value) : h.deadly room = g.deadly room := by
  rw [Game.deadly, Game.deadly, hs.lasts.2.properties.property room (by decide)]

theorem Steps.winning (hs : Steps g h) (room : Value) : h.winning room = g.winning room := by
  rw [Game.winning, Game.winning, hs.deadly, hs.lasts.2.properties.property room (by decide)]

theorem Enters.unique {room' : Value} (hr : g.Enters c room) (hr' : g.Enters c room') :
    room' = room :=
  hr'.exit.symm.trans hr.exit

theorem Meets.exists_enters {r : Reason} (hc : g.Meets c r) :
    ∃ room, g.Enters c room ∧ (g.deadly room ∨ g.winning room) := by
  cases hc with
  | death henters hdead => exact ⟨_, henters, .inl hdead⟩
  | victory henters hwin => exact ⟨_, henters, .inr hwin⟩

theorem Meets.unique {q r : Reason} (hq : g.Meets c q) (hr : g.Meets c r) : r = q := by
  have hboth {room room' : Value} (henters : g.Enters c room) (hdead : g.deadly room)
      (henters' : g.Enters c room')
      (hwin : g.winning room') : False := by
    rw [henters.unique henters', winning, hdead] at hwin
    cases hwin
  cases hq with
  | death henters hdead =>
    cases hr with
    | death => rfl
    | victory henters' hwin => exact (hboth henters hdead henters' hwin).elim
  | victory henters hwin =>
    cases hr with
    | death henters' hdead => exact (hboth henters' hdead henters hwin).elim
    | victory => rfl

end Game

namespace Play

open Runs Game

variable {α : Type} {g h : Game}

theorem of_property {x key default v : Value} (hrun : property x key default g = .ok v h) :
    h = g ∧ v = g.store.property x key default := by
  obtain ⟨_, k, hdemand, hrest⟩ := of_bind_ok hrun
  obtain rfl := of_demand hdemand
  rw [get_bind] at hrest
  cases hr : k.store.find? x with
  | none =>
    rw [hr] at hrest
    cases hrest
    rw [Store.property, hr]
    exact ⟨rfl, rfl⟩
  | some r =>
    rw [hr] at hrest
    dsimp only at hrest
    by_cases hkey : (Field.ofKey? key).isNone
    · rw [if_pos hkey] at hrest
      obtain ⟨_, m, hdemand, hpure⟩ := of_bind_ok hrest
      obtain rfl := of_demand hdemand
      cases hpure
      exact ⟨rfl, rfl⟩
    · rw [if_neg hkey] at hrest
      cases hrest
      exact ⟨rfl, rfl⟩

/-- A room whose descriptions are texts is described. -/
theorem exists_describeRoom (hg : g.Legible) (hl : g.Located) :
    ∃ h, describeRoom false g = .ok () h := by
  have hhere := hl.isText_here
  have ht := hl.reachable.tidy
  rw [describeRoom_of_walk hg.records ht (Value.hashable_of_isText hhere) (ht.walk_eq hhere)
    fun x hx ↦ (ht.of_mem_children hhere hx).1]
  refine ⟨_, onStore_of_ok (Store.setFlag_eq_ok ?_ ?_ rfl)⟩
  · exact Value.hashable_of_isText hhere
  · exact Value.isNone_eq_false_of_isText hhere

variable {exec : Exec} {room : Value} {s : Store}

theorem of_setOut (hrun : setOut g = .ok room h) :
    (g.global "PRSO").truthy ∧ g.store.property (g.global "HERE") (g.global "PRSO") .none = room ∧
      g.store.isDefined room ∧ g.Told h := by
  obtain ⟨dest, k, hdest, hrest⟩ := of_bind_ok hrun
  rw [destination, get_bind] at hdest
  dsimp only at hrest
  split at hdest
  · next hdirection =>
    obtain ⟨rfl, rfl⟩ := of_property hdest
    split at hrest
    · obtain ⟨_, _, -, hleft⟩ := of_bind_ok hrest
      cases hleft
    obtain ⟨_, m, hdemand, hrest⟩ := of_bind_ok hrest
    obtain rfl := of_demand hdemand
    rw [get_bind] at hrest
    split at hrest
    · obtain ⟨_, _, -, hleft⟩ := of_bind_ok hrest
      cases hleft
    · next hdefined =>
      obtain ⟨_, n, htell, hpure⟩ := of_bind_ok hrest
      cases hpure
      rw [Bool.not_eq_true', Bool.not_eq_false] at hdefined
      exact ⟨hdirection, rfl, hdefined, Quiet.told_of_ok (.tell _) htell⟩
  · cases hdest
    obtain ⟨_, _, -, hleft⟩ := of_bind_ok hrest
    cases hleft

theorem setOut_of_exit (hg : g.Located) (hhash : (g.global "PRSO").hashable)
    (hdirection : (g.global "PRSO").truthy)
    (hexit : g.store.property (g.global "HERE") (g.global "PRSO") .none = room)
    (hroom : g.store.isDefined room) :
    ∃ out, setOut g = .ok room (g.wrote out) := by
  have hrt := hg.reachable.isText_of_isDefined hroom
  have hhere := Value.hashable_of_isText hg.isText_here
  have hdest : destination g = .ok room g := by
    rw [destination, get_bind, if_pos hdirection, get_bind, property_of_hashable hhere hhash, hexit]
  refine ⟨[g.store.nameOf room, .text "\n"], ?_⟩
  rw [setOut, bind_of_ok hdest]
  dsimp only
  rw [if_neg (by simp [Value.isNone_eq_false_of_isText hrt]),
    bind_of_ok (demand_of_hashable (Value.hashable_of_isText hrt) g), get_bind,
    if_neg (by simp [hroom]),
    bind_of_ok (Writes.name_line (.of_isText hrt) g)]
  rfl

/-- The winner can always be moved to where it is. -/
theorem exists_move_of_here (hg : g.Located) (hroom : g.store.isDefined room)
    (hhere : Value.alike (g.global "HERE") room) :
    ∃ s, Store.move (g.global "WINNER") room g.store = .ok () s := by
  have hw := hg.isText_winner
  have hrt := hg.reachable.isText_of_isDefined hroom
  rw [Value.alike_eq_of_isText _ hrt, beq_iff_eq, hg.string?_here] at hhere
  have hfree : g.store.obstacle? (g.global "WINNER") room = none := by
    refine (hg.reachable.nested.obstacle?_eq_none_iff hw hrt).2 fun hin ↦
      hg.reachable.nested.not_inside_self hw ?_
    -- The room is the parent of the winner, so that what is around the room is around the winner.
    rcases hin with hsame | ⟨n, hn⟩
    · refine ⟨0, ?_⟩
      rw [Value.same_eq_of_isText _ hw, beq_iff_eq] at hsame ⊢
      exact hhere.trans hsame
    · refine ⟨n + 1, ?_⟩
      have hparent : g.store.parent (g.store.parent (g.global "WINNER")) = g.store.parent room :=
        Store.parent_congr _ (Store.find?_congr _ hg.isText_parent hhere)
      rwa [Function.iterate_succ_apply, Function.iterate_succ_apply, hparent,
        ← Function.iterate_succ_apply]
  obtain ⟨r, hr⟩ := Option.isSome_iff_exists.1 hg.winner
  refine ⟨g.store.transfer (g.global "WINNER") r.parent room, ?_⟩
  rw [Store.move, hr, hfree]
  simp [Value.hashable_of_isText hw]

/-- What is left of a walk once the room is entered. -/
theorem walk_of_exit (hg : g.Housed) (hhash : (g.global "PRSO").hashable)
    (hdirection : (g.global "PRSO").truthy)
    (hexit : g.store.property (g.global "HERE") (g.global "PRSO") .none = room)
    (hroom : g.store.isDefined room) (hs : Store.move (g.global "WINNER") room g.store = .ok () s)
    (exec : Exec) :
    ∃ out, walk exec g = (do
      describeRoom false
      arrive room
      returnTrue : Play Value) { (g.wrote out).assign "HERE" room with store := s } := by
  obtain ⟨out, hset⟩ := setOut_of_exit hg.toLocated hhash hdirection hexit hroom
  have hrt := hg.reachable.isText_of_isDefined hroom
  let m : Game := { (g.wrote out).assign "HERE" room with store := s }
  have hm : m.store.Actionless := hg.actionless.of_move hs
  have hgo : goTo exec room (g.wrote out) = .ok .none m := by
    have hmove : move ((g.wrote out).global "WINNER") room (g.wrote out) = _ := move_of_ok hs
    rw [goTo, get_bind, bind_of_ok hmove]
    exact applyAction_of_actionless exec hm (Value.hashable_of_isText hrt) _
  have hhere : Value.alike (m.global "HERE") room := by
    have heq : m.global "HERE" = room :=
      (global_assign (g.wrote out) "HERE" room "HERE").trans (if_pos rfl)
    rw [heq, Value.alike_eq_of_isText _ hrt, beq_self_eq_true]
  refine ⟨out, ?_⟩
  rw [walk_eq, bind_of_ok hset, bind_of_ok hgo, get_bind, hhere]
  rfl

variable {r : Reason} {c : Command}

theorem arrive_of_deadly (hdead : g.deadly room) :
    arrive room g = die (g.store.property room (.text "DEATH") .none) g := by
  rw [deadly] at hdead
  rw [arrive, get_bind]
  dsimp only
  rw [if_pos hdead, die_bind]

theorem arrive_of_winning (hwin : g.winning room) : arrive room g = win g := by
  obtain ⟨hdead, hwin⟩ := Bool.and_eq_true_iff.1 hwin
  rw [arrive, get_bind]
  dsimp only
  rw [if_neg (by simpa [deadly] using hdead), get_bind, if_pos hwin]

theorem exists_die_error (message : Value) (g : Game) :
    ∃ e h, (die message : Play α) g = .error e h := by
  cases hbanner : g.config.deathBanner.add (.text "\n") with
  | ok banner => exact ⟨_, _, ends_die.2 ⟨rfl, banner, hbanner, rfl⟩⟩
  | error f =>
    refine ⟨.fault f, g.wrote [message, .text "\n\n"], ?_⟩
    change (lift (g.config.deathBanner.add (.text "\n")) >>= _) (g.wrote [message, .text "\n\n"]) =
      _
    rw [hbanner]
    rfl

theorem exists_win_error (g : Game) : ∃ e h, (win : Play α) g = .error e h := by
  cases hline : (Value.text "\n").add g.config.victoryBanner with
  | error f =>
    refine ⟨.fault f, g, ?_⟩
    rw [win, get_bind, hline]
    rfl
  | ok line =>
    cases hbanner : line.add (.text "\n") with
    | ok banner => exact ⟨_, _, ends_win.2 ⟨rfl, line, banner, hline, hbanner, rfl⟩⟩
    | error f =>
      refine ⟨.fault f, g, ?_⟩
      rw [win, get_bind, hline]
      change (lift (line.add (.text "\n")) >>= _) g = _
      rw [hbanner]
      rfl

/-- Nobody gets past the arrival in a room that ends the game. -/
theorem exists_arrive_error (hroom : g.deadly room ∨ g.winning room) :
    ∃ e h, arrive room g = .error e h := by
  rcases hroom with hdead | hwin
  · rw [arrive_of_deadly hdead]
    exact exists_die_error _ g
  · rw [arrive_of_winning hwin]
    exact exists_win_error g

theorem reason_of_arrive_ends (hends : Ends (arrive room) g r h) :
    r = .died ∧ g.deadly room ∨ r = .won ∧ g.winning room := by
  have hroom := ends_arrive.1 hends
  split at hroom
  · next hdead => exact .inl ⟨(ends_die.1 hroom).1, hdead⟩
  · next hdead =>
    refine .inr ⟨(ends_win.1 hroom.2).1, ?_⟩
    rw [winning, hroom.1, Bool.and_true, Bool.not_eq_true', deadly]
    exact Bool.not_eq_true _ ▸ hdead

theorem exists_arrive_died (hg : g.Legible) (hdead : g.deadly room) :
    ∃ h, Ends (arrive room) g .died h := by
  obtain ⟨banner, hbanner⟩ := Value.exists_add hg.death (b := .text "\n") rfl
  exact ⟨_, (arrive_of_deadly hdead).trans (ends_die.2 ⟨rfl, banner, hbanner, rfl⟩)⟩

theorem exists_arrive_won (hg : g.Legible) (hwin : g.winning room) :
    ∃ h, Ends (arrive room) g .won h := by
  obtain ⟨line, hline⟩ := Value.exists_add (a := .text "\n") rfl hg.victory
  have hlt : line.isText := Value.isText_add rfl hg.victory hline
  obtain ⟨banner, hbanner⟩ := Value.exists_add hlt (b := .text "\n") rfl
  exact ⟨_, (arrive_of_winning hwin).trans (ends_win.2 ⟨rfl, line, banner, hline, hbanner, rfl⟩)⟩

end Play

end Fable
