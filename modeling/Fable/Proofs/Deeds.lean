import Fable.Proofs.Glimpses

namespace Fable

namespace Play

open Runs Game

variable {α β : Type} {g h : Game}

theorem move_of_ok {id into : Value} {s : Store} (hs : Store.move id into g.store = .ok () s) :
    move id into g = .ok true { g with store := s } := by
  have hdo : (do onStore (Store.move id into); pure true : Play Bool) g =
      .ok true { g with store := s } := by
    rw [bind_of_ok (onStore_of_ok hs)]
    rfl
  rw [move, surviving, tryCatch_of_ok hdo]

theorem move_of_error {id into : Value} {s : Store} {f : Fault}
    (hs : Store.move id into g.store = .error f s) :
    move id into g = (if f.isAuthoring then do report f; pure false else fail f : Play Bool) g := by
  have hdo : (do onStore (Store.move id into); pure true : Play Bool) g = .error (.fault f) g := by
    rw [bind_of_error (onStore_of_error hs), Store.of_move_error hs]
  rw [move, surviving, tryCatch_of_error hdo]

theorem told_move_of_error {id into : Value} {s : Store} {f : Fault}
    (hs : Store.move id into g.store = .error f s) : g.Told (after (move id into) g) := by
  have hq : Quiet (if f.isAuthoring then do report f; pure false else fail f : Play Bool) :=
    .ite (.bind (.report f) fun _ ↦ .pure _) (.fail f)
  rw [after, move_of_error hs]
  exact hq g

theorem ne_true_of_error {id into : Value} {s : Store} {f : Fault}
    (hs : Store.move id into g.store = .error f s) : move id into g ≠ .ok true h := by
  rw [move_of_error hs]
  split
  · intro hok
    obtain ⟨u, k, -, hleft⟩ := of_bind_ok hok
    cases hleft
  · rintro ⟨⟩

theorem told_bind_of_move_error {id into : Value} {s : Store} {e : Fault} {f : Bool → Play β}
    (hs : Store.move id into g.store = .error e s) (hno : Quiet (f false)) :
    g.Told (after (move id into >>= f) g) := by
  refine related_bind (told_move_of_error hs) fun b k hok ↦ ?_
  cases b with
  | true => exact absurd hok (ne_true_of_error hs)
  | false => exact hno k

theorem move_bind_does {id into : Value} {f : Bool → Play β} {v : StandardVerb}
    (hyes : ∀ s, Store.move id into g.store = .ok () s →
      g.Does v (after (f true) { g with store := s }))
    (hno : Quiet (f false)) : g.Does v (after (move id into >>= f) g) := by
  cases hs : Store.move id into g.store with
  | ok u s =>
    rw [after, bind_of_ok (move_of_ok hs), ← after]
    exact hyes s hs
  | error f s => exact (Deed.tells v (told_bind_of_move_error hs hno)).does

theorem after_applyAction (exec : Exec) (ha : g.store.Actionless) (id message : Value) :
    after (applyAction exec id message) g = g := by
  by_cases hid : id.hashable
  · rw [after, applyAction, bind_of_ok (demand_of_hashable hid g), get_bind]
    cases hr : g.store.find? id with
    | none => rfl
    | some r =>
      simp only [ha.isNone hr]
      rfl
  · exact after_of_error (bind_of_error (demand_of_not_hashable hid g) _)

/-- Nobody hears of a move into a room. -/
theorem goTo_cases (exec : Exec) (ha : g.store.Actionless) (room : Value) :
    g.Told (after (goTo exec room) g) ∨ ∃ s,
      Store.move (g.global "WINNER") room g.store = .ok () s ∧
      after (goTo exec room) g = { g.assign "HERE" room with store := s } := by
  rw [after, goTo, Runs.get_bind, ← after]
  cases hs : Store.move (g.global "WINNER") room g.store with
  | ok u s =>
    refine .inr ⟨s, rfl, ?_⟩
    rw [after, bind_of_ok (move_of_ok hs), ← after]
    exact after_applyAction (g := { g.assign "HERE" room with store := s })
      exec (ha.of_move hs) room _
  | error f s => exact .inl (told_bind_of_move_error hs (.pure _))

theorem of_directInScope {verb : String} {x : Value} (hok : directInScope verb g = .ok x h) :
    h = g ∧ x = g.global "PRSO" ∧ x.hashable ∧ x.isNone = false ∧ g.inScope x := by
  rw [directInScope, Runs.get_bind] at hok
  dsimp only at hok
  split at hok
  · obtain ⟨u, k, -, hleft⟩ := of_bind_ok hok
    cases hleft
  · next hnone =>
    by_cases hhash : (g.global "PRSO").hashable
    · rw [bind_of_ok (inScope_of_hashable hhash g)] at hok
      split at hok
      · next hin =>
        cases hok
        exact ⟨rfl, rfl, hhash, by simpa using hnone, hin⟩
      · obtain ⟨u, k, -, hleft⟩ := of_bind_ok hok
        cases hleft
    · rw [inScope, bind_of_error (bind_of_error (demand_of_not_hashable hhash g) _)] at hok
      cases hok

theorem exists_sum {v w t : Value} (hadd : v.add w = .ok t) (g : Game) :
    ∃ total k, sum v w g = .ok total k ∧ g.Told k := by
  have hfresh : ∃ total k, fresh t g = .ok total k := by
    unfold fresh
    split <;> exact ⟨_, _, rfl⟩
  obtain ⟨total, k, hk⟩ := hfresh
  have hsum : sum v w g = .ok total k := by
    rw [sum, hadd]
    exact hk
  exact ⟨total, k, hsum, Quiet.told_of_ok (.sum v w) hsum⟩

theorem score_of_error {points : Value} {f : Fault}
    (hadd : Value.add (g.globalOr "SCORE" (.int 0)) points = .error f) :
    score points g = .error (.fault f) g := by
  rw [score, Runs.get_bind, sum, hadd]
  rfl

theorem score_of_ok {points total : Value} {k : Game}
    (hsum : sum (g.globalOr "SCORE" (.int 0)) points g = .ok total k) :
    score points g = .ok total (k.assign "SCORE" total) := by
  rw [score, Runs.get_bind, bind_of_ok hsum]
  rfl

def taken (x : Value) (first : Bool) : Play Value := do
  onStore (Store.setFlag x touchedFlag)
  tell [.text "Taken.", newline]
  if first then discard <| score ((← get).store.property x (.text "VALUE") (.int 0))
  returnTrue

/-- The value of the object counts if it was never touched before, and if it can be added to the
score. -/
theorem taken_cases {x : Value} {s t : Store} {k : Game} (hhash : x.hashable)
    (hnone : x.isNone = false) (ht : t = s.update x (·.setFlag touchedFlag))
    (hk : k = Game.wrote { g with store := t } [.text "Taken.", .text "\n"]) (first : Bool) :
    (first = false ∧ taken x first { g with store := s } = .error (.signal .returnTrue) k) ∨
      (first = true ∧ ∃ f, taken x first { g with store := s } = .error (.fault f) k ∧
        Value.add (g.globalOr "SCORE" (.int 0)) (t.property x (.text "VALUE") (.int 0)) =
          .error f) ∨
      (first = true ∧ ∃ total m,
        taken x first { g with store := s } =
          .error (.signal .returnTrue) (m.assign "SCORE" total) ∧ k.Told m ∧
        sum (g.globalOr "SCORE" (.int 0)) (t.property x (.text "VALUE") (.int 0)) k =
          .ok total m) := by
  have hset : onStore (Store.setFlag x touchedFlag) { g with store := s } =
      .ok () { g with store := t } :=
    ht ▸ onStore_of_ok (Store.setFlag_eq_ok hhash hnone rfl)
  have htell : tell [.text "Taken.", newline] { g with store := t } = .ok () k :=
    hk ▸ tell_of_render rfl
  have hstore : k.store = t := hk ▸ rfl
  have hscore : k.globalOr "SCORE" (.int 0) = g.globalOr "SCORE" (.int 0) := hk ▸ rfl
  rw [taken, bind_of_ok hset, bind_of_ok htell]
  cases first with
  | false => exact .inl ⟨rfl, rfl⟩
  | true =>
    rw [if_pos rfl, Runs.get_bind, hstore]
    refine .inr ?_
    cases hadd : Value.add (g.globalOr "SCORE" (.int 0)) (t.property x (.text "VALUE") (.int 0))
      with
    | error f =>
      have hs := discard_of_error (score_of_error (g := k) (hscore ▸ hadd))
      exact .inl ⟨rfl, f, bind_of_error hs _, rfl⟩
    | ok v =>
      obtain ⟨total, m, hsum, hm⟩ := exists_sum hadd k
      have hs := discard_of_ok (score_of_ok (g := k) (hscore ▸ hsum))
      exact .inr ⟨rfl, total, m, bind_of_ok hs _, hm, hsum⟩

theorem taken_does {x : Value} {s : Store} (hx : g.PicksUp x s) (hhash : x.hashable)
    (hnone : x.isNone = false) :
    g.Does .take (after (taken x (!g.store.hasFlag x touchedFlag)) { g with store := s }) := by
  rcases taken_cases hhash hnone rfl rfl (!g.store.hasFlag x touchedFlag) with
    ⟨hno, hrun⟩ | ⟨hyes, f, hrun, hadd⟩ | ⟨hyes, total, m, hrun, hm, hsum⟩
  · rw [after_of_error hrun]
    exact (Deed.takes hx (.inl (by simpa using hno)) (told_wrote _ _)).does
  · rw [after_of_error hrun]
    exact (Deed.takes hx (.inr ⟨f, hadd⟩) (told_wrote _ _)).does
  · rw [after_of_error hrun]
    exact (Deed.takesFirst hx (by simpa using hyes) hsum ((told_wrote _ _).trans hm)).does

theorem take_does (g : Game) : g.Does .take (after take g) := by
  refine Quiet.bind_does (.directInScope _) fun x k hok _ ↦ ?_
  obtain ⟨rfl, hx, hhash, hnone, hscope⟩ := of_directInScope hok
  refine get_bind_does (get_bind_does ?_)
  dsimp only
  split
  · exact Quiet.does (.bind (.tell _) fun _ ↦ .returnTrue_bind _) _ _
  next hfree =>
  refine get_bind_does ?_
  split
  · exact Quiet.does (.bind (.onGenerator _) fun _ ↦ .bind (.tell _) fun _ ↦ .returnTrue_bind _) _ _
  next htakeable =>
  refine Quiet.bind_does (.tooHeavy _ _) fun heavy m _ hm ↦ ?_
  split
  · exact Quiet.does (.bind (.tell _) fun _ ↦ .returnTrue_bind _) _ _
  refine get_bind_does
    (move_bind_does (fun s hs ↦ ?_) (.bind (.tell _) fun _ ↦ .returnFalse_bind _))
  rw [← hm.global] at hs hfree
  rw [← hm.store] at hfree htakeable
  have hx : m.PicksUp x s :=
    ⟨(hm.inScope x).trans hscope, by simpa using htakeable, by simpa using hfree, hs⟩
  exact taken_does hx hhash hnone

theorem drop_does (g : Game) : g.Does .drop (after drop g) := by
  refine get_bind_does (get_bind_does (Quiet.bind_does (.demand _) fun _ k _ hk ↦ get_bind_does ?_))
  dsimp only
  split
  · exact Quiet.does (.bind (.tell _) fun _ ↦ .returnTrue_bind _) _ k
  next hheld =>
  simp only [Bool.or_eq_true, Bool.not_eq_true', not_or, Bool.not_eq_false] at hheld
  refine get_bind_does
    (move_bind_does (fun s hs ↦ ?_) (.bind (.tell _) fun _ ↦ .returnFalse_bind _))
  have htell : Quiet (do tell [.text "Dropped.", newline]; returnTrue : Play Value) :=
    .bind (.tell _) fun _ ↦ .returnTrue
  exact (Deed.drops (by rw [hk.global]; exact hheld.2) hs (htell _)).does

theorem of_directContainer {verb : String} {x : Value} (hok : directContainer verb g = .ok x h) :
    h = g ∧ g.inScope x ∧ g.store.hasFlag x containerFlag := by
  obtain ⟨y, k, hd, hrest⟩ := of_bind_ok hok
  obtain ⟨rfl, -, -, -, hscope⟩ := of_directInScope hd
  rw [Runs.get_bind] at hrest
  split at hrest
  · next hflag =>
    cases hrest
    exact ⟨rfl, hscope, hflag⟩
  · obtain ⟨u, m, -, hleft⟩ := of_bind_ok hrest
    cases hleft

theorem Obeys.directContainer {R : Game → Option Exit → Game → Prop} [Speech R]
    [Leaves R] (verb : String) :
    Obeys R (Play.directContainer verb) :=
  .bind (.directInScope verb) fun _ ↦ .get_bind fun _ ↦
    .ite (.pure _) (.bind (.tell _) fun _ ↦ .returnTrue)

/-- After a change of the store only telling is left, and all that there is to tell if the change is
refused. -/
theorem edit_bind_does {id : Value} {objection : Option Fault}
    {f : Record → Record} {p : Unit → Play β} {v : StandardVerb}
    (hok : ∀ s, Store.edit id objection f g.store = .ok () s →
      ∀ h, Game.Told { g with store := s } h → Deed v g h)
    (hp : Quiet (p ())) : g.Does v (after (onStore (Store.edit id objection f) >>= p) g) := by
  cases hs : Store.edit id objection f g.store with
  | ok u s =>
    rw [after, bind_of_ok (onStore_of_ok hs), ← after]
    exact (hok s hs _ (hp _)).does
  | error e s =>
    rw [after_of_error (bind_of_error (onStore_of_error hs) _), Store.of_edit_error hs]
    exact (Deed.tells v (.refl g)).does

theorem openUp_does (g : Game) : g.Does .openUp (after openUp g) := by
  refine Quiet.bind_does (.directContainer _) fun x k hok _ ↦ ?_
  obtain ⟨rfl, hscope, hcontainer⟩ := of_directContainer hok
  refine get_bind_does ?_
  split
  · exact Quiet.does (.bind (.tell _) fun _ ↦ .returnTrue_bind _) _ _
  refine edit_bind_does (fun s hs h hh ↦ .opens hscope hcontainer hs hh) ?_
  refine .get_bind fun _ ↦ .get_bind fun _ ↦ .ite (.bind (.tell _) fun _ ↦ .returnTrue_bind _) ?_
  exact .bind (.tell _) fun _ ↦ .bind (.revealed _) fun _ ↦ .bind (.tell _) fun _ ↦ .returnTrue

theorem closeUp_does (g : Game) : g.Does .closeUp (after closeUp g) := by
  refine Quiet.bind_does (.directContainer _) fun x k hok _ ↦ ?_
  obtain ⟨rfl, hscope, hcontainer⟩ := of_directContainer hok
  refine get_bind_does ?_
  split
  · exact Quiet.does (.bind (.tell _) fun _ ↦ .returnTrue_bind _) _ _
  exact edit_bind_does (fun s hs h hh ↦ .closes hscope hcontainer hs hh)
    (.bind (.tell _) fun _ ↦ .returnTrue)

theorem Obeys.examine {R : Game → Option Exit → Game → Prop} [Speech R] [Leaves R] :
    Obeys R Play.examine := by
  refine .bind (.directInScope _) fun x ↦ .get_bind fun g ↦ .ite ?_ (.ite ?_ ?_)
  · exact .bind (.tell _) fun _ ↦ .returnTrue
  · exact .bind (.describeContents _) fun _ ↦ .returnTrue
  · exact .bind (.tell _) fun _ ↦ .returnTrue

theorem Obeys.inventory {R : Game → Option Exit → Game → Prop} [Speech R] [Leaves R] :
    Obeys R Play.inventory := by
  refine .get_bind fun g ↦ .bind (.demand _) fun _ ↦ .get_bind fun k ↦ .ite ?_ ?_
  · exact .bind (.tell _) fun _ ↦ .returnTrue_bind _
  · exact .bind (.tell _) fun _ ↦ .bind (.forEach _ fun _ ↦ .tell _) fun _ ↦ .returnTrue

theorem Obeys.showScore {R : Game → Option Exit → Game → Prop} [Speech R] [Leaves R] :
    Obeys R Play.showScore :=
  .get_bind fun _ ↦ .bind (.tell _) fun _ ↦ .returnTrue

theorem Obeys.destination {R : Game → Option Exit → Game → Prop} [Law R] :
    Obeys R Play.destination :=
  .get_bind fun _ ↦ .ite (.get_bind fun _ ↦ .property _ _ _) (.pure _)

theorem walk_does (exec : Exec) (ha : g.store.Actionless) : g.Does .walk (after (walk exec) g) := by
  refine Quiet.bind_does .destination fun dest k _ hk ↦ ?_
  dsimp only
  split
  · exact Quiet.does (.bind (.tell _) fun _ ↦ .returnFalse_bind _) _ k
  refine Quiet.bind_does (.demand dest) fun _ m _ hm ↦ get_bind_does ?_
  split
  · exact Quiet.does (.bind (.tell _) fun _ ↦ .returnFalse_bind _) _ m
  next hdefined =>
  refine Quiet.bind_does (.tell _) fun _ n _ hn ↦ ?_
  have hroom : n.store.isDefined dest := by
    rw [hn.store]
    simpa using hdefined
  have ha : n.store.Actionless := (hk.trans (hm.trans hn)).store ▸ ha
  have hrest (handled : Value) (o : Game) : Glimpses o (after (do
      if !Value.alike ((← get).global "HERE") dest then returnFalse
      describeRoom handled.truthy
      arrive dest
      returnTrue : Play Value) o) := by
    refine get_bind_glimpses ?_
    split
    · exact Quiet.glimpses (.returnFalse_bind _) o
    · exact enter_glimpses _ dest o
  rcases goTo_cases exec ha dest with htold | ⟨s, hs, hgo⟩
  · exact (Deed.stays (related_bind (.single (.tells htold)) fun handled o _ ↦
      hrest handled o)).does
  · refine (Deed.walks hroom hs ?_).does
    rw [← hgo]
    exact related_after_bind (fun _ ↦ .refl) fun handled o _ ↦ hrest handled o

theorem look_does (exec : Exec) (ha : g.store.Actionless) : g.Does .look (after (look exec) g) := by
  refine get_bind_does (Quiet.bind_does (.tell _) fun _ k _ hk ↦ Deed.does (.looks ?_))
  refine related_bind ?_ fun handled m _ ↦
    related_bind (describeRoom_glimpses _ m) fun _ n _ ↦ .refl
  rw [after_applyAction exec (hk.store ▸ ha)]

theorem standardVerb_does (exec : Exec) (ha : g.store.Actionless) (v : StandardVerb) :
    g.Does v (after (standardVerb exec v) g) := by
  cases v with
  | look => exact look_does exec ha
  | examine => exact Quiet.does .examine _ g
  | take => exact take_does g
  | drop => exact drop_does g
  | inventory => exact Quiet.does .inventory _ g
  | openUp => exact openUp_does g
  | closeUp => exact closeUp_does g
  | walk => exact walk_does exec ha
  | score => exact Quiet.does .showScore _ g
  | quit => exact (Deed.tells .quit (.refl g)).does

end Play

end Fable
