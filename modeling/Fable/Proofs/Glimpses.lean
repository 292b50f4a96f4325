import Fable.Proofs.Calls
import Fable.Proofs.Telling
import Mathlib.Logic.Relation

namespace Fable

def Store.Actionless (s : Store) : Prop := ∀ e ∈ s.records, e.2.action.isNone

instance (s : Store) : Decidable s.Actionless :=
  inferInstanceAs (Decidable (∀ e ∈ s.records, e.2.action.isNone))

namespace Store

variable {s t : Store} {id : Value}

theorem Actionless.isNone (hs : s.Actionless) {r : Record} (hr : s.find? id = some r) :
    r.action.isNone := by
  obtain ⟨e, he, -, rfl⟩ := exists_mem_of_find? s hr
  exact hs e he

theorem Actionless.update (hs : s.Actionless) (id : Value) {f : Record → Record}
    (hf : ∀ r, (f r).action = r.action) : (s.update id f).Actionless := by
  intro e he
  obtain ⟨e', he', rfl⟩ := List.mem_map.1 he
  have ha := hs e' he'
  split
  · rwa [hf]
  · exact ha

theorem update_of_not_isDefined (hn : id.isNone = false) (hd : s.isDefined id = false)
    (f : Record → Record) : s.update id f = s := by
  have hnone : s.records.find? id = none := by
    simpa [isDefined, find?, hn, lookup?] using hd
  have hall : ∀ e ∈ s.records, ¬ Value.alike e.1 id := by
    simpa [Table.find?] using hnone
  have hmap : s.records.modify id f = s.records :=
    (List.map_congr_left fun e he ↦ if_neg (hall e he)).trans s.records.map_id
  rw [update, hmap]

theorem setFlag_eq_ok {flag : Value} (hid : id.hashable)
    (hn : id.isNone = false) (hf : flag.hashable) :
    setFlag id flag s = .ok () (s.update id (·.setFlag flag)) := by
  cases hd : s.isDefined id with
  | false => simp [setFlag, edit, hid, hd, update_of_not_isDefined hn hd]
  | true => simp [setFlag, edit, hid, hd, unnamable?, hf]

theorem exists_setFlag (s : Store) {flag : Value} (hid : id.hashable) (hf : flag.hashable) :
    ∃ t, setFlag id flag s = .ok () t := by
  cases hd : s.isDefined id with
  | false => exact ⟨s, by simp [setFlag, edit, hid, hd]⟩
  | true => exact ⟨_, by simp [setFlag, edit, hid, hd, unnamable?, hf]; rfl⟩

theorem Actionless.of_move (hs : s.Actionless) {into : Value} (h : move id into s = .ok () t) :
    t.Actionless := by
  rcases of_move_ok h with rfl | ⟨r, -, -, rfl⟩
  · exact hs
  · exact hs.update id (f := fun r ↦ { r with parent := into }) fun _ ↦ rfl

theorem Actionless.of_edit (hs : s.Actionless) {objection : Option Fault} {f : Record → Record}
    (hf : ∀ r, (f r).action = r.action) (h : edit id objection f s = .ok () t) : t.Actionless := by
  rcases of_edit_ok h with rfl | rfl
  · exact hs
  · exact hs.update id hf

end Store

namespace Game

def assign (g : Game) (name : String) (v : Value) : Game :=
  { g with globals := g.globals.insert (.text name) v }

theorem globalOr_assign (g : Game) (name : String) (v : Value) (k : String) (default : Value) :
    (g.assign name v).globalOr k default = if name = k then v else g.globalOr k default := by
  have hkey : (Value.text name).isText := rfl
  simp only [globalOr, assign, Table.find?_insert g.globals hkey, Value.string?, Option.some.injEq]
  split <;> rfl

theorem global_assign (g : Game) (name : String) (v : Value) (k : String) :
    (g.assign name v).global k = if name = k then v else g.global k :=
  globalOr_assign g name v k .none

theorem Told.assign {g h : Game} (hg : g.Told h) (name : String) (v : Value) :
    (g.assign name v).Told (h.assign name v) :=
  ⟨hg.config, hg.store, by rw [Game.assign, Game.assign, hg.globals], hg.verbs,
    hg.routines, hg.dead, hg.won⟩

structure PicksUp (g : Game) (x : Value) (s : Store) : Prop where
  scope : g.inScope x
  takeable : g.store.hasFlag x Play.takeableFlag
  free : Value.same (g.store.parent x) (g.global "WINNER") = false
  move : Store.move x (g.global "WINNER") g.store = .ok () s

inductive Glimpse : Game → Game → Prop
  | tells {g h : Game} (ht : g.Told h) : Glimpse g h
  | describes {g : Game} {s : Store}
      (hset : Store.setFlag (g.global "HERE") Play.touchedFlag g.store = .ok () s) :
      Glimpse g { g with store := s }
  | dies (g : Game) : Glimpse g { g.assign "DEAD-FLAG" (.bool true) with dead := true }
  | wins (g : Game) : Glimpse g { g.assign "WON-FLAG" (.bool true) with won := true }

abbrev Glimpses : Game → Game → Prop := Relation.ReflTransGen Glimpse

/-- What a verb does. -/
inductive Deed : StandardVerb → Game → Game → Prop
  | tells {g h : Game} (v : StandardVerb) (ht : g.Told h) : Deed v g h
  /-- The object was touched before, or its value cannot be added to the score. -/
  | takes {g h : Game} {x : Value} {s : Store} (hx : g.PicksUp x s)
      (hscore : g.store.hasFlag x Play.touchedFlag ∨ ∃ f, Value.add (g.globalOr "SCORE" (.int 0))
        ((s.update x (·.setFlag Play.touchedFlag)).property x (.text "VALUE") (.int 0)) = .error f)
      (hh : Game.Told { g with store := s.update x (·.setFlag Play.touchedFlag) } h) :
      Deed .take g h
  | takesFirst {g k m : Game} {x total : Value} {s : Store} (hx : g.PicksUp x s)
      (huntouched : g.store.hasFlag x Play.touchedFlag = false)
      (htotal : Play.sum (g.globalOr "SCORE" (.int 0))
        ((s.update x (·.setFlag Play.touchedFlag)).property x (.text "VALUE") (.int 0)) k =
        .ok total m)
      (hm : Game.Told { g with store := s.update x (·.setFlag Play.touchedFlag) } m) :
      Deed .take g (m.assign "SCORE" total)
  | drops {g h : Game} {x : Value} {s : Store}
      (hheld : Value.same (g.store.parent x) (g.global "WINNER"))
      (hmove : Store.move x (g.global "HERE") g.store = .ok () s)
      (hh : Game.Told { g with store := s } h) :
      Deed .drop g h
  | opens {g h : Game} {x : Value} {s : Store} (hscope : g.inScope x)
      (hcontainer : g.store.hasFlag x Play.containerFlag)
      (hset : Store.setFlag x Store.openFlag g.store = .ok () s)
      (hh : Game.Told { g with store := s } h) :
      Deed .openUp g h
  | closes {g h : Game} {x : Value} {s : Store} (hscope : g.inScope x)
      (hcontainer : g.store.hasFlag x Play.containerFlag)
      (hclear : Store.clearFlag x Store.openFlag g.store = .ok () s)
      (hh : Game.Told { g with store := s } h) :
      Deed .closeUp g h
  | walks {g h : Game} {room : Value} {s : Store} (hroom : g.store.isDefined room)
      (hmove : Store.move (g.global "WINNER") room g.store = .ok () s)
      (hh : Glimpses { g.assign "HERE" room with store := s } h) : Deed .walk g h
  | stays {g h : Game} (hh : g.Glimpses h) : Deed .walk g h
  | looks {g h : Game} (hh : g.Glimpses h) : Deed .look g h

def Does (g : Game) (v : StandardVerb) (h : Game) : Prop := ∃ k, g.Told k ∧ Deed v k h

theorem Deed.does {v : StandardVerb} {g h : Game} (hd : Deed v g h) : g.Does v h := ⟨g, .refl g, hd⟩

end Game

namespace Play

open Runs Game

variable {α β : Type} {g h : Game}

theorem Quiet.does {p : Play α} (hp : Quiet p) (v : StandardVerb) (g : Game) :
    g.Does v (after p g) :=
  (Deed.tells v (hp g)).does

theorem Quiet.bind_does {p : Play α} {f : α → Play β} {v : StandardVerb} (hp : Quiet p)
    (hf : ∀ a h, p g = .ok a h → g.Told h → h.Does v (after (f a) h)) :
    g.Does v (after (p >>= f) g) := by
  have ht := hp g
  cases hrun : p g with
  | ok a h =>
    rw [after_of_ok hrun] at ht
    rw [after, bind_of_ok hrun, ← after]
    obtain ⟨k, hk, hd⟩ := hf a h hrun ht
    exact ⟨k, ht.trans hk, hd⟩
  | error e h =>
    rw [after_of_error hrun] at ht
    rw [after_of_error (bind_of_error hrun f)]
    exact (Deed.tells v ht).does

theorem get_bind_does {f : Game → Play β} {v : StandardVerb} (hf : g.Does v (after (f g) g)) :
    g.Does v (after (get >>= f) g) := hf

theorem Quiet.glimpses {p : Play α} (hp : Quiet p) (g : Game) : Glimpses g (after p g) :=
  .single (.tells (hp g))

theorem Quiet.bind_glimpses {p : Play α} {f : α → Play β} (hp : Quiet p)
    (hf : ∀ a h, p g = .ok a h → g.Told h → Glimpses h (after (f a) h)) :
    Glimpses g (after (p >>= f) g) :=
  related_bind (hp.glimpses g) fun a h hok ↦ hf a h hok (hp.told_of_ok hok)

theorem get_bind_glimpses {f : Game → Play β} (hf : Glimpses g (after (f g) g)) :
    Glimpses g (after (get >>= f) g) := hf

theorem describeRoom_glimpses (handled : Bool) (g : Game) :
    Glimpses g (after (describeRoom handled) g) := by
  refine get_bind_glimpses ?_
  have hrest : ∀ k : Game, g.Told k → Glimpses k (after (do
      describeContents (g.global "HERE")
      onStore (Store.setFlag (g.global "HERE") touchedFlag)) k) := by
    intro k hk
    refine Quiet.bind_glimpses (.describeContents _) fun _ m _ hm ↦ ?_
    rw [← (hk.trans hm).global]
    cases hs : Store.setFlag (m.global "HERE") touchedFlag m.store with
    | ok u s =>
      rw [after_of_ok (onStore_of_ok hs)]
      exact .single (.describes hs)
    | error f s =>
      rw [after_of_error (onStore_of_error hs), Store.of_edit_error hs]
  split
  · refine Quiet.bind_glimpses (.property _ _ _) fun text k _ hk ↦ ?_
    split
    · exact Quiet.bind_glimpses (.tell _) fun _ m _ hm ↦ hrest m (hk.trans hm)
    · exact hrest k hk
  · exact hrest g (.refl g)

theorem die_glimpses (message : Value) (g : Game) :
    Glimpses g (after (die message : Play α) g) := by
  refine Quiet.bind_glimpses (.write _) fun _ k _ _ ↦
    Quiet.bind_glimpses (.write _) fun _ m _ _ ↦ ?_
  refine get_bind_glimpses (Quiet.bind_glimpses (.lift _) fun _ n _ _ ↦ ?_)
  refine Quiet.bind_glimpses (.write _) fun _ o _ _ ↦ ?_
  exact .head (.dies o) (.single (.tells ⟨rfl, rfl, rfl, rfl, rfl, rfl, rfl⟩))

theorem win_glimpses (g : Game) : Glimpses g (after (win : Play α) g) := by
  refine get_bind_glimpses (Quiet.bind_glimpses (.lift _) fun _ k _ _ ↦ ?_)
  refine Quiet.bind_glimpses (.lift _) fun _ m _ _ ↦ Quiet.bind_glimpses (.write _) fun _ n _ _ ↦ ?_
  exact .head (.wins n) (.single (.tells ⟨rfl, rfl, rfl, rfl, rfl, rfl, rfl⟩))

theorem arrive_glimpses (room : Value) (g : Game) : Glimpses g (after (arrive room) g) := by
  have hwin : ∀ k : Game, Glimpses k (after (do
      if ((← get).store.property room (.text "VICTORY") .none).truthy then win : Play Unit) k) := by
    intro k
    refine get_bind_glimpses ?_
    split
    · exact win_glimpses k
    · exact .refl
  refine get_bind_glimpses ?_
  dsimp only
  split
  · exact related_bind (die_glimpses _ g) fun _ k _ ↦ hwin k
  · exact hwin g

/-- What is left of a walk once the player is in the room. -/
theorem enter_glimpses (handled : Bool) (room : Value) (g : Game) : Glimpses g (after (do
    describeRoom handled
    arrive room
    returnTrue : Play Value) g) :=
  related_bind (describeRoom_glimpses handled g) fun _ k _ ↦
    related_bind (arrive_glimpses room k) fun _ _ _ ↦ .refl

end Play

end Fable
