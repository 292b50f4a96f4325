import Fable.Proofs.Scoring

namespace Fable

structure Record.Remains (r r' : Record) : Prop where
  fields : r' = { r with parent := r'.parent, flags := r'.flags }
  flags : ∀ flag, flag ≠ "TOUCHBIT" → flag ≠ "OPENBIT" →
    r'.hasFlag (.text flag) = r.hasFlag (.text flag)

namespace Record

variable {r r' r'' : Record}

theorem Remains.refl (r : Record) : r.Remains r := ⟨rfl, fun _ _ _ ↦ rfl⟩

theorem Remains.trans (h : r.Remains r') (h' : r'.Remains r'') : r.Remains r'' where
  fields := by rw [h'.fields, h.fields]
  flags flag ht ho := (h'.flags flag ht ho).trans (h.flags flag ht ho)

theorem remains_parent (r : Record) (into : Value) : r.Remains { r with parent := into } :=
  ⟨rfl, fun _ _ _ ↦ rfl⟩

theorem remains_touched (r : Record) : r.Remains (r.setFlag Play.touchedFlag) :=
  ⟨rfl, fun flag ht _ ↦ r.hasFlag_setFlag_of_ne (by simpa [Play.touchedFlag] using ht)⟩

theorem remains_opened (r : Record) : r.Remains (r.setFlag Store.openFlag) :=
  ⟨rfl, fun flag _ ho ↦ r.hasFlag_setFlag_of_ne (by simpa [Store.openFlag] using ho)⟩

theorem remains_closed (r : Record) : r.Remains (r.clearFlag Store.openFlag) :=
  ⟨rfl, fun _ _ ho ↦ r.hasFlag_clearFlag_of_ne rfl rfl fun he ↦ ho (Option.some.inj he)⟩

end Record

namespace Store

variable {s t u : Store} {id : Value}

def Remains (s t : Store) : Prop :=
  List.Forall₂ (fun e e' ↦ e'.1 = e.1 ∧ Record.Remains e.2 e'.2) s.records t.records

theorem Remains.refl (s : Store) : s.Remains s :=
  List.forall₂_same.2 fun e _ ↦ ⟨rfl, .refl e.2⟩

theorem Remains.trans (hs : s.Remains t) (ht : t.Remains u) : s.Remains u := by
  unfold Remains at *
  generalize s.records = as at hs
  generalize t.records = bs at hs ht
  generalize u.records = cs at ht
  induction hs generalizing cs with
  | nil => exact ht
  | cons he _ ih =>
    cases ht with
    | cons he' ht => exact .cons ⟨he'.1.trans he.1, he.2.trans he'.2⟩ (ih _ ht)

theorem remains_update {f : Record → Record} (hf : ∀ r : Record, r.Remains (f r))
    (s : Store) (id : Value) :
    s.Remains (s.update id f) := by
  refine List.forall₂_map_right_iff.2 (List.forall₂_same.2 fun e _ ↦ ?_)
  split
  · exact ⟨rfl, hf e.2⟩
  · exact ⟨rfl, .refl e.2⟩

theorem remains_of_move {into : Value} (h : move id into s = .ok () t) : s.Remains t := by
  rcases of_move_ok h with rfl | ⟨r, -, -, rfl⟩
  · exact .refl t
  · exact remains_update (f := fun r ↦ { r with parent := into })
      (fun r ↦ r.remains_parent into) s id

theorem remains_of_edit {objection : Option Fault} {f : Record → Record}
    (hf : ∀ r : Record, r.Remains (f r)) (h : edit id objection f s = .ok () t) : s.Remains t := by
  rcases of_edit_ok h with rfl | rfl
  · exact .refl t
  · exact remains_update hf s id

end Store

namespace Game

variable {g h k : Game}

/-- Of what was set up, nothing changes. -/
structure Remains (g h : Game) : Prop where
  store : g.store.Remains h.store
  verbs : h.verbs = g.verbs
  routines : h.routines = g.routines

theorem Step.remains (hs : Step g h) : g.Remains h := by
  cases hs with
  | tells ht => exact ⟨ht.store ▸ .refl _, ht.verbs, ht.routines⟩
  | asks | dies | wins => exact ⟨.refl _, rfl, rfl⟩
  | takes hscope htakeable hfree hmove hscore =>
    exact ⟨(Store.remains_of_move hmove).trans (Store.remains_update Record.remains_touched _ _),
      rfl, rfl⟩
  | takesFirst hscope htakeable hfree hmove huntouched htotal =>
    exact ⟨(Store.remains_of_move hmove).trans (Store.remains_update Record.remains_touched _ _),
      rfl, rfl⟩
  | drops hheld hmove => exact ⟨Store.remains_of_move hmove, rfl, rfl⟩
  | walks hroom hmove => exact ⟨Store.remains_of_move hmove, rfl, rfl⟩
  | opens hscope hcontainer hset =>
    exact ⟨Store.remains_of_edit Record.remains_opened hset, rfl, rfl⟩
  | closes hscope hcontainer hclear =>
    exact ⟨Store.remains_of_edit Record.remains_closed hclear, rfl, rfl⟩
  | describes hset => exact ⟨Store.remains_of_edit Record.remains_touched hset, rfl, rfl⟩

theorem Steps.remains (hs : Steps g h) : g.Remains h := by
  induction hs with
  | refl => exact ⟨.refl _, rfl, rfl⟩
  | tail _ hstep ih =>
    have hlast := hstep.remains
    exact ⟨ih.store.trans hlast.store, hlast.verbs.trans ih.verbs, hlast.routines.trans ih.routines⟩

end Game

namespace Store

variable {s t u : Store} {y into : Value} {x : String}

structure Rests (s t : Store) : Prop where
  parent : Fixes (·.parent) s t
  opened : Fixes (·.hasFlag openFlag) s t

theorem Rests.refl (s : Store) : s.Rests s := ⟨.refl _ s, .refl _ s⟩

theorem Rests.trans (hs : s.Rests t) (ht : t.Rests u) : s.Rests u :=
  ⟨hs.parent.trans ht.parent, hs.opened.trans ht.opened⟩

theorem rests_touched (s : Store) (y : Value) : s.Rests (s.update y (·.setFlag Play.touchedFlag)) :=
  ⟨fixes_update y fun _ ↦ rfl,
    fixes_update y fun r ↦ r.hasFlag_setFlag_of_ne (by simp [Play.touchedFlag, openFlag])⟩

theorem parent_update_of_ne (hne : y.string? ≠ some x) (f : Record → Record) :
    (s.update y f).parent (.text x) = s.parent (.text x) := by
  rw [parent, parent, find?_update_of_ne rfl hne f]

/-- An object stays where it is unless it is the one that is moved. -/
theorem parent_of_move (h : move y into s = .ok () t) :
    t.parent (.text x) = s.parent (.text x) ∨
      y.string? = some x ∧ s.obstacle? y into = none ∧ t.parent (.text x) = into := by
  rcases of_move_ok h with rfl | ⟨r, hr, hfree, rfl⟩
  · exact .inl rfl
  by_cases hy : y.string? = some x
  · have htext : y.isText := Value.isText_iff.2 ⟨x, hy⟩
    have hx : (s.transfer y r.parent into).find? (.text x) = some { r with parent := into } := by
      rw [find?_eq_lookup? _ rfl, lookup?_transfer htext rfl hr]
      exact if_pos hy
    exact .inr ⟨hy, hfree, by rw [parent, hx]⟩
  · exact .inl (parent_update_of_ne (s := s) hy fun r ↦ { r with parent := into })

theorem obstacle?_self (hy : y.string? = some x) (hinto : into.string? = some x) :
    s.obstacle? y into ≠ none := by
  have hyt : y.isText := Value.isText_iff.2 ⟨x, hy⟩
  have hequal : s.equal into y = true := by
    rw [equal_of_isText into hyt, Value.same_eq_of_isText into hyt, hy, hinto, beq_self_eq_true]
  have hsome : into.isNone = false :=
    Value.isNone_eq_false_of_isText (Value.isText_iff.2 ⟨x, hinto⟩)
  simp [obstacle?, hsome, hequal]

theorem visible_of_string? (s : Store) (hy : y.string? = some x) (place : Value) :
    s.visible y place = s.visible (.text x) place := by
  simp only [visible, s.parent_congr (s.find?_of_string? hy)]

end Store

namespace Game

variable {g h k : Game} {x : String}

/-- What a command may do to the objects: nothing, or one thing to one of them. -/
inductive Acts (g h : Game) : Prop
  | rests (hrests : g.store.Rests h.store)
  | takes {y : Value} {s : Store} (hscope : g.inScope y)
      (htakeable : g.store.hasFlag y Play.takeableFlag)
      (hmove : Store.move y (g.global "WINNER") g.store = .ok () s) (hrests : s.Rests h.store)
  | drops {y : Value} {s : Store} (hheld : Value.same (g.store.parent y) (g.global "WINNER"))
      (hmove : Store.move y (g.global "HERE") g.store = .ok () s) (hrests : s.Rests h.store)
      (hhere : h.global "HERE" = g.global "HERE")
  | turns {y : Value} {f : Record → Record} (hscope : g.inScope y)
      (hcontainer : g.store.hasFlag y Play.containerFlag) (hf : ∀ r, (f r).parent = r.parent)
      (hrests : (g.store.update y f).Rests h.store)
  | walks {room : Value} {s : Store}
      (hmove : Store.move (g.global "WINNER") room g.store = .ok () s) (hrests : s.Rests h.store)
      (hhere : h.global "HERE" = room)

theorem Acts.of_same (ha : h.Acts k) (hstore : h.store = g.store)
    (hw : h.global "WINNER" = g.global "WINNER") (hh : h.global "HERE" = g.global "HERE") :
    g.Acts k := by
  have hscope (y : Value) : h.inScope y = g.inScope y := by rw [inScope, inScope, hstore, hw, hh]
  cases ha with
  | rests hrests => exact .rests (hstore ▸ hrests)
  | @takes y s hs htakeable hmove hrests =>
    exact .takes (hscope y ▸ hs) (hstore ▸ htakeable) (hw ▸ hstore ▸ hmove) hrests
  | drops hheld hmove hrests hhere =>
    exact .drops (hw ▸ hstore ▸ hheld) (hh ▸ hstore ▸ hmove) hrests (hhere.trans hh)
  | @turns y f hs hcontainer hf hrests =>
    exact .turns (hscope y ▸ hs) (hstore ▸ hcontainer) hf (hstore ▸ hrests)
  | walks hmove hrests hhere => exact .walks (hw ▸ hstore ▸ hmove) hrests hhere

theorem Told.acts (hg : g.Told h) : g.Acts h := .rests (hg.store ▸ .refl _)

theorem Told.trans_acts (hg : g.Told h) (ha : h.Acts k) : g.Acts k :=
  ha.of_same hg.store (hg.global _) (hg.global _)

theorem inScope_of_string? {y : Value} (hy : y.string? = some x) (hscope : g.inScope y) :
    g.inScope (.text x) := by
  rwa [inScope, Store.visible_of_string? _ hy, Store.visible_of_string? _ hy] at hscope

theorem hasFlag_of_string? {y flag : Value} (hy : y.string? = some x)
    (hflag : g.store.hasFlag y flag) :
    g.store.hasFlag (.text x) flag := by
  rwa [Store.hasFlag, Store.find?_of_string? _ hy] at hflag

/-- Nothing is in scope that is not in a container. -/
theorem parent_of_inScope {y : Value} (hscope : g.inScope y) :
    (g.store.parent y).isNone = false := by
  refine Bool.eq_false_iff.2 fun hnone ↦ ?_
  simp [inScope, Store.visible, hnone] at hscope

theorem Acts.opened (ha : g.Acts h)
    (hx : h.store.hasFlag (.text x) Store.openFlag ≠ g.store.hasFlag (.text x) Store.openFlag) :
    g.store.hasFlag (.text x) Play.containerFlag ∧ g.inScope (.text x) := by
  cases ha with
  | rests hrests => exact absurd (hrests.opened.hasFlag _) hx
  | takes hscope htakeable hmove hrests =>
    exact absurd ((Store.fixes_flags_of_move hmove).trans hrests.opened).hasFlag fun he ↦ hx (he _)
  | drops hheld hmove hrests hhere =>
    exact absurd ((Store.fixes_flags_of_move hmove).trans hrests.opened).hasFlag fun he ↦ hx (he _)
  | walks hmove hrests hhere =>
    exact absurd ((Store.fixes_flags_of_move hmove).trans hrests.opened).hasFlag fun he ↦ hx (he _)
  | @turns y f hscope hcontainer hf hrests =>
    by_cases hy : y.string? = some x
    · exact ⟨hasFlag_of_string? hy hcontainer, inScope_of_string? hy hscope⟩
    · refine absurd ?_ hx
      rw [hrests.opened.hasFlag, Store.hasFlag, Store.find?_update_of_ne rfl hy, ← Store.hasFlag]

/-- An object is moved by taking it, by dropping it, or as the winner who walks. -/
theorem Acts.moved (ha : g.Acts h) (hx : h.store.parent (.text x) ≠ g.store.parent (.text x)) :
    ((g.global "WINNER").string? ≠ some x ∧ (g.store.parent (.text x)).isNone = false ∧
      h.store.parent (.text x) = g.global "WINNER" ∧ g.store.hasFlag (.text x) Play.takeableFlag ∧
      g.inScope (.text x)) ∨
    (Value.same (g.store.parent (.text x)) (g.global "WINNER") ∧
      h.store.parent (.text x) = g.global "HERE" ∧ h.global "HERE" = g.global "HERE") ∨
    ((g.global "WINNER").string? = some x ∧ h.store.parent (.text x) = h.global "HERE") := by
  cases ha with
  | rests hrests => exact absurd (hrests.parent.parent _) hx
  | turns hscope hcontainer hf hrests =>
    exact absurd ((Store.fixes_update _ hf).trans hrests.parent).parent fun he ↦ hx (he _)
  | takes hscope htakeable hmove hrests =>
    have hp := hrests.parent.parent (.text x)
    rcases Store.parent_of_move (x := x) hmove with he | ⟨hy, hfree, hinto⟩
    · exact absurd (hp.trans he) hx
    · have hscope := inScope_of_string? hy hscope
      -- The winner would be put into itself.
      have hne : (g.global "WINNER").string? ≠ some x := fun hw ↦ Store.obstacle?_self hy hw hfree
      exact .inl ⟨hne, parent_of_inScope hscope, hp.trans hinto,
        hasFlag_of_string? hy htakeable, hscope⟩
  | drops hheld hmove hrests hhere =>
    have hp := hrests.parent.parent (.text x)
    rcases Store.parent_of_move (x := x) hmove with he | ⟨hy, -, hinto⟩
    · exact absurd (hp.trans he) hx
    · rw [Store.parent_congr _ (Store.find?_of_string? _ hy)] at hheld
      exact .inr (.inl ⟨hheld, hp.trans hinto, hhere⟩)
  | walks hmove hrests hhere =>
    have hp := hrests.parent.parent (.text x)
    rcases Store.parent_of_move (x := x) hmove with he | ⟨hy, -, hinto⟩
    · exact absurd (hp.trans he) hx
    · exact .inr (.inr ⟨hy, hp.trans (hinto.trans hhere.symm)⟩)

structure Rests (g h : Game) : Prop where
  store : g.store.Rests h.store
  here : h.global "HERE" = g.global "HERE"

theorem Rests.trans (hg : g.Rests h) (hh : h.Rests k) : g.Rests k :=
  ⟨hg.store.trans hh.store, hh.here.trans hg.here⟩

theorem Told.rests (hg : g.Told h) : g.Rests h := ⟨hg.store ▸ .refl _, hg.global _⟩

theorem Glimpse.rests (hs : Glimpse g h) : g.Rests h := by
  cases hs with
  | tells ht => exact ht.rests
  | @describes s hset =>
    rcases Store.of_edit_ok hset with rfl | rfl
    · exact ⟨.refl _, rfl⟩
    · exact ⟨Store.rests_touched g.store _, rfl⟩
  | dies => exact ⟨.refl _, g.global_assign _ _ _⟩
  | wins => exact ⟨.refl _, g.global_assign _ _ _⟩

theorem Glimpses.rests (hs : Glimpses g h) : g.Rests h := by
  induction hs with
  | refl => exact (Told.refl g).rests
  | tail _ hstep ih => exact ih.trans hstep.rests

theorem Deed.acts {v : StandardVerb} (hd : Deed v g h) : g.Acts h := by
  cases hd with
  | tells v ht => exact ht.acts
  | @takes _ _ x s hx hscore hh =>
    exact .takes hx.scope hx.takeable hx.move (hh.store ▸ s.rests_touched x)
  | @takesFirst _ k m x total s hx huntouched htotal hm =>
    exact .takes hx.scope hx.takeable hx.move (hm.store ▸ s.rests_touched x)
  | drops hheld hmove hh => exact .drops hheld hmove hh.rests.store hh.rests.here
  | opens hscope hcontainer hset hh =>
    rcases Store.of_edit_ok hset with rfl | rfl
    · exact .rests hh.rests.store
    · exact .turns hscope hcontainer (f := (·.setFlag _)) (fun _ ↦ rfl) hh.rests.store
  | closes hscope hcontainer hclear hh =>
    rcases Store.of_edit_ok hclear with rfl | rfl
    · exact .rests hh.rests.store
    · exact .turns hscope hcontainer (f := (·.clearFlag _)) (fun _ ↦ rfl) hh.rests.store
  | @walks _ _ room s hroom hmove hh =>
    have hrests := Glimpses.rests hh
    exact .walks hmove hrests.store (hrests.here.trans (g.global_assign "HERE" room "HERE"))
  | stays hh => exact .rests (Glimpses.rests hh).store
  | looks hh => exact .rests (Glimpses.rests hh).store

theorem Does.acts {v : StandardVerb} (hd : g.Does v h) : g.Acts h := by
  obtain ⟨k, hk, hd⟩ := hd
  exact hk.trans_acts hd.acts

theorem acts_command (hv : g.OnlyVerbs) (ha : g.store.Actionless) (c : Command) :
    g.Acts (g.afterCommands [c]) := by
  rcases Play.after_perform hv ha c with ⟨hstore, -⟩ | ⟨v, -, hrun⟩
  · exact .rests (hstore ▸ .refl _)
  · rw [hrun]
    have hdoes := Play.standardVerb_does (g := g.asked (g.verbTag c.verb) c.direct c.indirect)
      Play.innerExec ha v
    exact hdoes.acts.of_same rfl (winner_asked g _ _ _) (here_asked g _ _ _)

/-- What a single command may do to an object, and when. -/
structure Changes (g h : Game) : Prop where
  opened : ∀ x, h.store.hasFlag (.text x) Store.openFlag ≠
    g.store.hasFlag (.text x) Store.openFlag →
    g.store.hasFlag (.text x) Play.containerFlag ∧ g.inScope (.text x)
  moved : ∀ x, (g.global "WINNER").string? ≠ some x →
    h.store.parent (.text x) ≠ g.store.parent (.text x) →
      ((g.store.parent (.text x)).isNone = false ∧ h.store.parent (.text x) = g.global "WINNER" ∧
        g.store.hasFlag (.text x) Play.takeableFlag ∧ g.inScope (.text x)) ∨
      (Value.same (g.store.parent (.text x)) (g.global "WINNER") ∧
        h.store.parent (.text x) = g.global "HERE")
  walked : ∀ x, (g.global "WINNER").string? = some x →
    h.store.parent (.text x) ≠ g.store.parent (.text x) → h.store.parent (.text x) = h.global "HERE"

theorem Acts.changes (ha : g.Acts h) : g.Changes h where
  opened _ hx := ha.opened hx
  moved x hne hx := by
    rcases ha.moved hx with ⟨-, htake⟩ | ⟨hheld, hhere, -⟩ | ⟨hw, -⟩
    · exact .inl htake
    · exact .inr ⟨hheld, hhere⟩
    · exact absurd hw hne
  walked x hw hx := by
    rcases ha.moved hx with ⟨hne, -⟩ | ⟨-, hhere, hsame⟩ | ⟨-, hhere⟩
    · exact absurd hw hne
    · rw [hhere, hsame]
    · exact hhere

/-- Over any commands the objects, their fields, properties and other flags, the verbs and the
routines stay as they are, and each further command opens, closes and moves no more than it may. -/
theorem commands_change_only (hv : g.OnlyVerbs) (ha : g.store.Actionless)
    (commands : List Command) :
    g.Remains (g.afterCommands commands) ∧
      ∀ c, (g.afterCommands commands).Changes (g.afterCommands (commands ++ [c])) := by
  have hsteps := afterCommands_steps hv ha commands
  refine ⟨hsteps.remains, fun c ↦ ?_⟩
  have hv' : (g.afterCommands commands).OnlyVerbs :=
    fun name r hr ↦ hv name r (hsteps.routines ▸ hr)
  rw [afterCommands_concat]
  exact (acts_command hv' (hsteps.actionless ha) c).changes

/-- The coin is taken out of the vault, and dropped there again. -/
theorem vault_changes_only :
    vault.OnlyVerbs ∧ vault.store.Actionless ∧
      let g := vault.afterCommands [taking "COIN"]
      let h := vault.afterCommands [taking "COIN", dropping "COIN"]
      (g.store.parent (.text "COIN")).string? = some "PLAYER" ∧
      (h.store.parent (.text "COIN")).string? = some "VAULT" ∧ vault.Remains g ∧ g.Changes h := by
  have hverbs : vault.OnlyVerbs := Play.onlyVerbs_installed fun _ _ hr ↦ nomatch hr
  have hactions : vault.store.Actionless := by decide +kernel
  obtain ⟨hremains, hchanges⟩ := commands_change_only hverbs hactions [taking "COIN"]
  exact ⟨hverbs, hactions, by decide +kernel, by decide +kernel, hremains,
    hchanges (dropping "COIN")⟩

end Game

end Fable
