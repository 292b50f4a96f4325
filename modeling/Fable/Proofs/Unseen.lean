import Fable.Proofs.Hiding

namespace Fable
def textLength (vs : List Value) : ℕ := (String.join (vs.map Value.display)).length

theorem textLength_append (vs ws : List Value) :
    textLength (vs ++ ws) = textLength vs + textLength ws := by
  rw [textLength, List.map_append, String.join_append, String.length_append, textLength, textLength]

theorem Line.exists_written (s : Store) (l : Line) : ∃ vs, l.written s = vs ++ [.text "\n"] := by
  cases l with
  | itself x =>
    dsimp only [written]
    split
    · exact ⟨[_], rfl⟩
    · exact ⟨[_, _, _], rfl⟩
  | heading x => exact ⟨[_, _, _], rfl⟩
  | inside x => exact ⟨[_, _], rfl⟩

theorem Line.textLength_written_pos (s : Store) (l : Line) : 0 < textLength (l.written s) := by
  obtain ⟨vs, hvs⟩ := l.exists_written s
  rw [hvs, textLength_append]
  exact Nat.succ_pos _

theorem textLength_lt_of_sublist (s : Store) {ls ms : List Line} (h : ls.Sublist ms) :
    ls = ms ∨ textLength (ls.flatMap (·.written s)) < textLength (ms.flatMap (·.written s)) := by
  induction h with
  | slnil => exact .inl rfl
  | @cons ls ms l hsub ih =>
    have hle : textLength (ls.flatMap (·.written s)) ≤ textLength (ms.flatMap (·.written s)) := by
      rcases ih with rfl | hlt
      · exact le_rfl
      · exact hlt.le
    rw [List.flatMap_cons, textLength_append]
    exact .inr (lt_of_le_of_lt hle (Nat.lt_add_of_pos_left (l.textLength_written_pos s)))
  | cons_cons l hsub ih =>
    rw [List.flatMap_cons, List.flatMap_cons, textLength_append, textLength_append]
    rcases ih with rfl | hlt
    · exact .inl rfl
    · exact .inr (Nat.add_lt_add_left hlt _)

namespace Store.Without

variable {s t : Store} {x winner c : Value} (h : s.Without x t)

include h

theorem prospect_eq : t.prospect winner c =
    [s.nameOf c, .text "\n"] ++
    (s.longLine c ++ (t.listing winner (t.met c)).flatMap (·.written s)) := by
  rw [prospect, h.nameOf, h.longLine]
  simp only [h.written]

variable (hr : Reachable s) (hflag : s.hasFlag x Play.invisibleFlag) (hc : c.IsPlace)

include hr hflag hc

theorem listing_eq_of_textLength
    (hlength : textLength (t.prospect winner c) = textLength (s.prospect winner c)) :
    t.listing winner (t.met c) = s.listing winner (s.met c) := by
  rw [h.prospect_eq, prospect, textLength_append, textLength_append, textLength_append,
    textLength_append] at hlength
  have hlines := Nat.add_left_cancel (Nat.add_left_cancel hlength)
  rcases h.listing_met_sublist hr hflag hc with hsub | hsub
  · rcases textLength_lt_of_sublist s hsub with heq | hlt
    · exact heq
    · exact absurd hlines hlt.ne
  · rcases textLength_lt_of_sublist s hsub with heq | hlt
    · exact heq.symm
    · exact absurd hlines hlt.ne'

end Store.Without

def Game.said (g : Game) : String := String.join (g.written.toList.map Value.display)

theorem Game.length_said (g : Game) : g.said.length = textLength g.written.toList := rfl

namespace Play

open Runs Game

variable {g : Game} {verb direct indirect x : Value}

/-- A look comes to its end, and nothing but the mark of the room is left of it beside what is
written. -/
theorem look_eq (exec : Exec) (hr : g.store.Reachable) (hs : g.store.Legible)
    (ha : g.store.Actionless) (hhere : (g.global "HERE").IsPlace) : ∃ s :
    Store, s.Actionless ∧ look exec g = .error (.signal .returnTrue)
      { g.wrote (g.store.prospect (g.global "WINNER") (g.global "HERE")) with store := s } := by
  have ht := hr.tidy
  have hhash := hhere.hashable
  let k := g.wrote [g.store.nameOf (g.global "HERE"), .text "\n"]
  have hhandled : applyAction exec (g.global "HERE") (.message .look) k = .ok .none k :=
    applyAction_of_actionless exec (g := k) ha hhash _
  have hflag : touchedFlag.hashable := rfl
  obtain ⟨s, hmark⟩ := Store.exists_setFlag g.store hhash hflag
  have hdescribe : describeRoom false k = .ok () _ :=
    (describeRoom_of_walk (g := k) hs ht hhash (ht.walk_eq_met hr.nested.placed hhere)
      fun x hx ↦ ht.isText_of_mem_met hhere hx).trans (onStore_of_ok hmark)
  refine ⟨s, ha.of_edit (f := (·.setFlag touchedFlag)) (fun _ ↦ rfl) hmark, ?_⟩
  rw [look, get_bind]
  dsimp only
  rw [bind_of_ok (Writes.name_line hhere g), bind_of_ok hhandled]
  refine (bind_of_ok hdescribe _).trans ?_
  rw [Store.prospect, ← wrote_wrote g]
  rfl

theorem perform_look (hl : g.Leads .look verb direct indirect)
    (hr : g.store.Reachable) (hs : g.store.Legible) (hhere : (g.global "HERE").IsPlace) :
    ∃ h, perform Play.exec verb direct indirect g = .ok true h ∧
      h.written.toList = g.written.toList ++ g.store.prospect (g.global "WINNER")
        (g.global "HERE") := by
  let k := g.asked (g.verbTag verb) direct indirect
  have hhere' : k.global "HERE" = g.global "HERE" := here_asked ..
  have hwinner : k.global "WINNER" = g.global "WINNER" := winner_asked ..
  obtain ⟨s, hsa, hlook⟩ := look_eq (g := k) innerExec hr hs hl.actionless (hhere' ▸ hhere)
  refine ⟨_, perform_of_signal hl hlook hsa (hhere' ▸ hl.here), ?_⟩
  rw [hhere', hwinner]
  exact toList_wrote k _

end Play

namespace Game

open Play Runs

variable {g : Game} {verb direct indirect x : Value}

/-- Where objects are does not matter for what a command comes to. -/
theorem Leads.of_store {v : StandardVerb} (hl : g.Leads v verb direct indirect)
    (hw : (g.global "WINNER").hashable) {s : Store} (hs : s.Actionless) :
    ({ g with store := s } : Game).Leads v verb direct indirect where
  winner _ := hw
  here := hl.here
  actionless := hs
  knows := hl.knows
  tag := hl.tag
  verb := hl.verb
  direct := hl.direct
  indirect := hl.indirect

/-- A look at the room writes the same with and without an invisible object in its container,
exactly if the object is not in one that is told of with what is in it, nor in front of another one
nowhere. -/
theorem invisible_unseen_iff (hl : g.Leads .look verb direct indirect) (hr : g.store.Reachable)
    (hs : g.store.Legible) (hw : (g.global "WINNER").hashable) (hhere : (g.global "HERE").IsPlace)
    (hflag : g.store.hasFlag x invisibleFlag) :
    ∃ t h k, Store.remove x g.store = .ok () t ∧
      perform Play.exec verb direct indirect g = .ok true h ∧
      perform Play.exec verb direct indirect { g with store := t } = .ok true k ∧
      (h.written = k.written ↔ ¬ (g.store.Revealed (g.global "WINNER") (g.global "HERE") x ∨
        g.store.InFront (g.global "WINNER") (g.global "HERE") x)) ∧
      (h.said = k.said ↔ ¬ (g.store.Revealed (g.global "WINNER") (g.global "HERE") x ∨
        g.store.InFront (g.global "WINNER") (g.global "HERE") x)) := by
  have hd := Store.isDefined_of_hasFlag _ hflag
  obtain ⟨t, hremove, hwithout⟩ := hr.exists_remove hd
  let g' : Game := { g with store := t }
  have hl' : g'.Leads .look verb direct indirect := hl.of_store hw (hl.actionless.of_move hremove)
  have hr' : g'.store.Reachable := (hr.move hd Value.isPlace_none hremove).1
  obtain ⟨h, hrun, hwritten⟩ := perform_look hl hr hs hhere
  obtain ⟨k, hrun', hwritten'⟩ := perform_look hl' hr' (hs.of_move hremove) hhere
  have hsame (hlines : t.listing (g.global "WINNER") (t.met (g.global "HERE")) =
      g.store.listing (g.global "WINNER") (g.store.met (g.global "HERE"))) :
      h.written = k.written := by
    refine Array.toList_inj.1 (hwritten.trans (Eq.trans ?_ hwritten'.symm))
    rw [Store.prospect, ← hlines, ← hwithout.prospect_eq]
    rfl
  have hlines (hsaid : h.said = k.said) : t.listing (g.global "WINNER") (t.met (g.global "HERE")) =
      g.store.listing (g.global "WINNER") (g.store.met (g.global "HERE")) := by
    refine hwithout.listing_eq_of_textLength hr hflag hhere ?_
    have hlength := congrArg String.length hsaid
    rw [length_said, length_said, hwritten, hwritten', textLength_append, textLength_append]
      at hlength
    exact (Nat.add_left_cancel hlength).symm
  have hread (hw : h.written = k.written) : h.said = k.said := by rw [said, said, hw]
  refine ⟨t, h, k, hremove, hrun, hrun', ?_, ?_⟩
  all_goals rw [← hwithout.listing_met_eq_iff hr hflag hhere]
  · exact ⟨fun heq ↦ hlines (hread heq), hsame⟩
  · exact ⟨hlines, fun heq ↦ hread (hsame heq)⟩

def shedCalls : List Store.Call := [
  .define (.text "SHED") {},
  .define (.text "PLAYER") { parent := .text "SHED" },
  .define (.text "GHOST") { parent := .text "SHED", flags := .list [.text "INVISIBLE"] },
  .define (.text "BOX") { parent := .text "SHED", flags := .list [.text "OPENBIT"] },
  .define (.text "COIN") { parent := .text "BOX", flags := .list [.text "INVISIBLE"] }]

def bareShed : Game where
  store := .history shedCalls
  globals := [(.text "WINNER", .text "PLAYER"), (.text "PLAYER", .text "PLAYER"),
    (.text "HERE", .text "SHED")]

def shed : Game := after installStandardVerbs bareShed

/-- The box is told of with the coin in it. -/
theorem coin_told_of_in_box :
    let bare : Game := { shed with store := after (Store.remove (.text "COIN")) shed.store }
    shed.store.hasFlag (.text "COIN") invisibleFlag = true ∧
      (after (perform Play.exec (.text "LOOK") .none .none) shed).said =
        "SHED\nThere is a BOX here.\nThe BOX contains:\n  A COIN\n" ∧
      (after (perform Play.exec (.text "LOOK") .none .none) bare).said =
        "SHED\nThere is a BOX here.\n" := by
  decide +kernel

theorem ghost_not_told_of :
    shed.Leads .look (.text "LOOK") .none .none ∧ shed.store.Reachable ∧ shed.store.Legible ∧
      (shed.global "WINNER").hashable ∧ (shed.global "HERE").IsPlace ∧
      shed.store.hasFlag (.text "GHOST") invisibleFlag ∧
      ∃ t h k, Store.remove (.text "GHOST") shed.store = .ok () t ∧
        perform Play.exec (.text "LOOK") .none .none shed = .ok true h ∧
        perform Play.exec (.text "LOOK") .none .none { shed with store := t } = .ok true k ∧
        h.said = k.said := by
  have hactions : bareShed.store.Actionless := by decide +kernel
  have hoffer : bareShed.Offerable := ⟨fun _ ↦ by decide +kernel, by decide +kernel⟩
  have hleads : shed.Leads .look (.text "LOOK") .none .none :=
    leads_of_installed hactions hoffer (by decide +kernel) rfl rfl rfl
  have hr : shed.store.Reachable := by
    rw [shed, store_installed]
    apply Store.reachable_history
    simp only [shedCalls, List.mem_cons, List.not_mem_nil, or_false]
    rintro c (rfl | rfl | rfl | rfl | rfl)
    · exact ⟨rfl, Value.isPlace_none, ⟨_, rfl⟩, ⟨_, rfl⟩⟩
    all_goals exact ⟨rfl, .of_isText rfl, ⟨_, rfl⟩, ⟨_, rfl⟩⟩
  have hs : shed.store.Legible := by decide +kernel
  have hw : (shed.global "WINNER").hashable := by decide +kernel
  have hhere : (shed.global "HERE").IsPlace := .of_isText (by decide +kernel)
  have hflag : shed.store.hasFlag (.text "GHOST") invisibleFlag := by decide +kernel
  obtain ⟨t, h, k, hremove, hrun, hrun', -, hsaid⟩ :=
    invisible_unseen_iff hleads hr hs hw hhere hflag
  refine ⟨hleads, hr, hs, hw, hhere, hflag, t, h, k, hremove, hrun, hrun', hsaid.2 ?_⟩
  rintro (hrevealed | ⟨hnone, -⟩)
  · exact absurd hrevealed (by decide +kernel)
  · exact absurd hnone (by decide +kernel)

end Game

end Fable
