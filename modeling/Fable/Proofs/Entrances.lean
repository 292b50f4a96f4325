import Fable.Proofs.Refusal

namespace Fable

theorem Table.find?_modify_of_isText {α : Type} (t : Table α) {key k : Value} (hkey : key.isText)
    (hne : k.string? ≠ key.string?) (f : α → α) : (modify t key f).find? k = find? t k := by
  induction t with
  | nil => rfl
  | cons e t ih =>
    rw [modify, List.map_cons, ← modify, find?_cons, find?_cons, ih]
    by_cases he : Value.alike e.1 key
    · rw [if_pos he]
      rw [Value.alike_eq_of_isText _ hkey, beq_iff_eq] at he
      have htext : e.1.isText := by rwa [Value.isText, he]
      have hno : Value.alike e.1 k = false := by
        rw [Value.alike_eq_of_isText_left htext, he, beq_eq_false_iff_ne]
        exact hne.symm
      simp [hno]
    · rw [if_neg he]

namespace Store

variable {s t : Store} {x into : Value} {r : Record}

theorem parent_transfer_of_ne (hx : x.isText) (source into : Value) {y : Value}
    (hne : y.string? ≠ x.string?) :
    (s.transfer x source into).parent y = s.parent y := by
  have hfind : (s.transfer x source into).find? y = s.find? y := by
    unfold find?
    split
    · rfl
    · exact Table.find?_modify_of_isText s.records hx hne fun r ↦ { r with parent := into }
  simp only [parent, hfind]

theorem parent_transfer_self (hx : x.isText) (hr : s.find? x = some r) (into : Value) :
    (s.transfer x r.parent into).parent x = into := by
  rw [parent, find?_eq_lookup? _ hx, lookup?_transfer hx hx hr, if_pos rfl]

end Store

namespace Game

def handler? (g : Game) (id : Value) : Option Value :=
  (g.store.find? id).bind fun r ↦
    if r.action.isNone then none
    else if r.action.isText then (g.routines.find? r.action).filter fun q ↦ !q.isNone
    else some r.action

/-- What becomes of a message to an object: one call of its handler if it has one, and otherwise
nothing. -/
def heard (g : Game) (exec : Exec) (id message : Value) : EStateM.Result Exit Game Value :=
  match g.handler? id with
  | some q => Play.boundary (exec q [message]) g
  | none => .ok .none g

/-- The winner is in the room, as the global says, and nothing else has changed. -/
structure Entered (g h : Game) (room : Value) : Prop where
  here : h.global "HERE" = room
  winner : h.store.parent (g.global "WINNER") = room
  parents : ∀ y, y.string? ≠ (g.global "WINNER").string? → h.store.parent y = g.store.parent y
  globals : ∀ name, name.string? ≠ some "HERE" → h.globals.find? name = g.globals.find? name
  diagnostics : h.diagnostics = g.diagnostics

/-- The room is not entered: that is said once, and no handler is called. -/
def Refuses (g : Game) (room : Value) : Prop :=
  ∃ h, g.Warned h ∧ ∀ exec, Play.goTo exec room g = .ok (.bool false) h

/-- The room is entered, and after that its handler is called with the one message to look. -/
def Admits (g : Game) (room : Value) : Prop :=
  ∃ h, g.Entered h room ∧ ∀ exec, Play.goTo exec room g = h.heard exec room (.message .look)

end Game

namespace Play

open Runs Game

variable {g : Game} {room : Value} {s : Store} {a b : String}

theorem applyAction_eq_heard (exec : Exec) {id : Value} (hid : id.hashable)
    (message : Value) (g : Game) :
    applyAction exec id message g = g.heard exec id message := by
  rw [applyAction, bind_of_ok (demand_of_hashable hid g), Runs.get_bind, heard, handler?]
  cases g.store.find? id with
  | none => rfl
  | some r =>
    dsimp only [Option.bind]
    split
    · rfl
    · split
      · next htext =>
        have hroutine : routine r.action g = .ok ((g.routines.find? r.action).getD .none) g := by
          rw [routine, bind_of_ok (demand_of_hashable (Value.hashable_of_isText htext) g)]
          rfl
        rw [call, bind_of_ok hroutine]
        cases hq : g.routines.find? r.action with
        | none => rfl
        | some q =>
          rw [Option.getD_some, Option.filter_some]
          cases hn : q.isNone with
          | true => simp only [Bool.not_true, Bool.false_eq_true, if_false, if_true]; rfl
          | false => simp only [Bool.not_false, Bool.false_eq_true, if_false, if_true]
      · rfl

theorem goTo_of_move (exec : Exec) (hroom : room.hashable)
    (hs : Store.move (g.global "WINNER") room g.store = .ok () s) :
    goTo exec room g = ({ g with store := s }.assign "HERE" room).heard exec room
      (.message .look) := by
  rw [goTo, Runs.get_bind, bind_of_ok (move_of_ok hs), if_pos rfl]
  exact applyAction_eq_heard exec hroom _ _

theorem goTo_of_cycle (exec : Exec) (hstrict : g.config.strict.truthy = false)
    (hs : Store.move (g.global "WINNER") room g.store = .error (.cycle a b) s) :
    goTo exec room g = .ok (.bool false) (g.reported (.cycle a b)) := by
  rw [goTo, Runs.get_bind, bind_of_ok (move_of_cycle hstrict hs)]
  rfl

end Play

namespace Game

open Play Runs

variable {g h : Game} {room : Value} {s : Store}

/-- A handler that does nothing tells in which state it is called. -/
theorem heard_idle (h : Game) (id message : Value) :
    h.heard (fun _ _ ↦ pure .none) id message = .ok .none h := by
  unfold heard
  split <;> rfl

theorem not_refuses_of_heard (hgo : ∀ exec, goTo exec room g = h.heard exec room (.message .look)) :
    ¬ g.Refuses room := by
  rintro ⟨k, -, hk⟩
  have hidle := (hk fun _ _ ↦ pure .none).symm.trans (hgo _)
  rw [heard_idle] at hidle
  cases hidle

theorem entered_of_transfer (hw : (g.global "WINNER").isText) {r : Record}
    (hr : g.store.find? (g.global "WINNER") = some r) (room : Value) :
    g.Entered
      ({ g with store := g.store.transfer (g.global "WINNER") r.parent room }.assign "HERE" room)
      room where
  here := (global_assign _ "HERE" room "HERE").trans (if_pos rfl)
  winner := Store.parent_transfer_self hw hr room
  parents _ hy := Store.parent_transfer_of_ne hw r.parent room hy
  globals name hname := (Table.find?_insert g.globals rfl name room).trans (if_neg hname.symm)
  diagnostics := rfl

theorem refuses_of_obstacle (hw : (g.global "WINNER").isText) (hroom : room.isText)
    (hstrict : g.config.strict.truthy = false) (hd : g.store.isDefined (g.global "WINNER"))
    (ho : g.store.obstacle? (g.global "WINNER") room ≠ none) : g.Refuses room := by
  obtain ⟨a, ha⟩ := Value.isText_iff.1 hw
  obtain ⟨b, hb⟩ := Value.isText_iff.1 hroom
  obtain ⟨r, hr⟩ := Option.isSome_iff_exists.1 hd
  have hmove : Store.move (g.global "WINNER") room g.store = .error (.cycle a b) g.store := by
    simp [Store.move, Value.hashable_of_isText hw, hr, Store.obstacle?_eq_cycle ha hb ho]
  exact ⟨_, warned_reported g (.cycle a b) [] [], fun exec ↦ goTo_of_cycle exec hstrict hmove⟩

theorem admits_of_free (hw : (g.global "WINNER").isText) (hroom : room.isText)
    (hd : g.store.isDefined (g.global "WINNER"))
    (ho : g.store.obstacle? (g.global "WINNER") room = none) :
    g.Admits room := by
  obtain ⟨r, hr⟩ := Option.isSome_iff_exists.1 hd
  have hmove : Store.move (g.global "WINNER") room g.store =
      .ok () (g.store.transfer (g.global "WINNER") r.parent room) := by
    simp [Store.move, Value.hashable_of_isText hw, hr, ho]
  exact ⟨_, entered_of_transfer hw hr room,
    fun exec ↦ goTo_of_move exec (Value.hashable_of_isText hroom) hmove⟩

/-- If the winner is not defined the room is taken for the player's although nothing has been
moved. -/
theorem not_admits_of_undefined (hw : (g.global "WINNER").isText) (hroom : room.isText)
    (hd : g.store.isDefined (g.global "WINNER") = false) : ¬ g.Refuses room ∧ ¬ g.Admits room := by
  have hfind : g.store.find? (g.global "WINNER") = none := by simpa [Store.isDefined] using hd
  have hmove : Store.move (g.global "WINNER") room g.store = .ok () g.store := by
    simp [Store.move, Value.hashable_of_isText hw, hfind]
  have hgo (exec : Exec) :
      goTo exec room g = (g.assign "HERE" room).heard exec room (.message .look) :=
    goTo_of_move exec (Value.hashable_of_isText hroom) hmove
  refine ⟨not_refuses_of_heard hgo, ?_⟩
  rintro ⟨h, hentered, hh⟩
  have hidle := (hgo fun _ _ ↦ pure .none).symm.trans (hh _)
  rw [heard_idle, heard_idle] at hidle
  obtain ⟨-, rfl⟩ := EStateM.Result.ok.inj hidle
  have hnone : (g.assign "HERE" room).store.parent (g.global "WINNER") = .none := by
    change g.store.parent _ = _
    simp only [Store.parent, hfind]
  rw [← hentered.winner, hnone] at hroom
  cases hroom

/-- The player comes to the room as a whole or not at all exactly if the winner is defined; and then
the room refuses exactly a winner that is the room or in which it is. -/
theorem goTo_whole_or_nothing_iff (hstrict : g.config.strict.truthy = false)
    (hw : (g.global "WINNER").isText) (hroom : room.isText) :
    (g.Refuses room ∨ g.Admits room ↔ g.store.isDefined (g.global "WINNER")) ∧
      (g.store.isDefined (g.global "WINNER") → (g.Refuses room ↔
        Value.same room (g.global "WINNER") ∨ g.store.held room (g.global "WINNER"))) := by
  have hdefined (hd : g.store.isDefined (g.global "WINNER")) : (g.Refuses room ∧
      (Value.same room (g.global "WINNER") ∨ g.store.held room (g.global "WINNER"))) ∨
        (g.Admits room ∧
      ¬ (Value.same room (g.global "WINNER") ∨ g.store.held room (g.global "WINNER"))) := by
    by_cases ho : g.store.obstacle? (g.global "WINNER") room = none
    · exact .inr ⟨admits_of_free hw hroom hd ho, (Store.obstacle?_eq_none_iff_held hw hroom).1 ho⟩
    · have hinside := not_not.1 (mt (Store.obstacle?_eq_none_iff_held hw hroom).2 ho)
      exact .inl ⟨refuses_of_obstacle hw hroom hstrict hd ho, hinside⟩
  refine ⟨⟨fun h ↦ ?_, fun hd ↦ (hdefined hd).imp And.left And.left⟩, fun hd ↦ ?_⟩
  · by_contra hd
    obtain ⟨hrefuses, hadmits⟩ := not_admits_of_undefined hw hroom (Bool.not_eq_true _ ▸ hd)
    exact h.elim hrefuses hadmits
  · rcases hdefined hd with ⟨hrefuses, hinside⟩ | ⟨⟨h, -, hgo⟩, hinside⟩
    · exact iff_of_true hrefuses hinside
    · exact iff_of_false (not_refuses_of_heard hgo) hinside

def staged (winner : String) : Game where
  store := .history [
    .define (.text "PLAYER") {},
    .define (.text "HALL") {},
    .define (.text "CLOSET") { parent := .text "PLAYER" }]
  globals := [(.text "WINNER", .text winner), (.text "HERE", .none)]

/-- The hall is taken for the room of a ghost that is nowhere. -/
theorem hall_entered_without_ghost :
    let h := after (goTo Play.exec (.text "HALL")) (staged "GHOST")
    ((h.global "HERE").string? = some "HALL" ∧ (h.store.parent (.text "GHOST")).isNone ∧
      h.diagnostics = []) ∧
      ¬ (staged "GHOST").Refuses (.text "HALL") ∧ ¬ (staged "GHOST").Admits (.text "HALL") :=
  ⟨by decide +kernel, not_admits_of_undefined (by decide +kernel) rfl (by decide +kernel)⟩

theorem closet_refuses_player :
    let g := staged "PLAYER"
    g.config.strict.truthy = false ∧ (g.global "WINNER").isText ∧ (Value.text "CLOSET").isText ∧
      g.store.isDefined (g.global "WINNER") ∧ g.Refuses (.text "CLOSET") ∧
        g.Admits (.text "HALL") := by
  intro g
  have hstrict : g.config.strict.truthy = false := by decide +kernel
  have hd : g.store.isDefined (g.global "WINNER") := by decide +kernel
  have hw : (g.global "WINNER").isText := by decide +kernel
  have hc : (Value.text "CLOSET").isText := rfl
  have hh : (Value.text "HALL").isText := rfl
  have hcloset := goTo_whole_or_nothing_iff hstrict hw hc
  have hhall := goTo_whole_or_nothing_iff hstrict hw hh
  have hfree : ¬ g.Refuses (.text "HALL") := by
    rw [hhall.2 hd]
    decide +kernel
  exact ⟨hstrict, hw, hc, hd, (hcloset.2 hd).2 (by decide +kernel),
    (hhall.1.2 hd).resolve_left hfree⟩

end Game

end Fable
