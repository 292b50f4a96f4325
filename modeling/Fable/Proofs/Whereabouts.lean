import Fable.Proofs.Standard

namespace Fable

namespace Game

variable {g h : Game}

/-- The winner is in the room, as its record says. -/
structure Located (g : Game) : Prop where
  reachable : g.store.Reachable
  winner : g.store.isDefined (g.global "WINNER")
  here : Value.same (g.global "HERE") (g.store.parent (g.global "WINNER"))
  somewhere : (g.global "HERE").isNone = false

namespace Located

theorem isText_winner (hg : Located g) : (g.global "WINNER").isText :=
  hg.reachable.isText_of_isDefined hg.winner

theorem isText_parent (hg : Located g) : (g.store.parent (g.global "WINNER")).isText := by
  have hplace := hg.reachable.nested.placed.parent (.of_isText hg.isText_winner)
  refine hplace.isText_iff_ne.2 (Bool.eq_false_iff.2 fun hn ↦ ?_)
  have hhere := hg.here
  have hsome := hg.somewhere
  cases hp : g.store.parent (g.global "WINNER") <;>
    simp only [hp, Value.isNone, Bool.false_eq_true] at hn
  rw [hp, Value.same_none, hsome] at hhere
  exact Bool.false_ne_true hhere

theorem string?_here (hg : Located g) :
    (g.global "HERE").string? = (g.store.parent (g.global "WINNER")).string? := by
  have hhere := hg.here
  rwa [Value.same_eq_of_isText _ hg.isText_parent, beq_iff_eq] at hhere

theorem isText_here (hg : Located g) : (g.global "HERE").isText := by
  rw [Value.isText, hg.string?_here]
  exact hg.isText_parent

theorem of_parent_eq (hg : Located g) (hr : h.store.Reachable)
    (hd : h.store.isDefined (g.global "WINNER"))
    (hp : h.store.parent (g.global "WINNER") = g.store.parent (g.global "WINNER"))
    (hw : h.global "WINNER" = g.global "WINNER") (hh : h.global "HERE" = g.global "HERE") :
    Located h where
  reachable := hr
  winner := by rw [hw, hd]
  here := by rw [hw, hh, hp, hg.here]
  somewhere := by rw [hh, hg.somewhere]

theorem of_keeps (hg : Located g) (hs : h.store.Reachable ∧ g.store.Keeps h.store)
    (hw : h.global "WINNER" = g.global "WINNER") (hh : h.global "HERE" = g.global "HERE") :
    Located h := by
  refine hg.of_parent_eq hs.1 ?_ (hs.2.parent _ hg.isText_winner) hw hh
  rw [hs.2.isDefined _ hg.isText_winner, hg.winner]

/-- The winner stays where it is when something else is put somewhere. -/
theorem of_places (hg : Located g) {x p : Value}
    (hs : h.store.Reachable ∧ g.store.Places x p h.store)
    (hx : x.string? ≠ (g.global "WINNER").string?) (hw : h.global "WINNER" = g.global "WINNER")
    (hh : h.global "HERE" = g.global "HERE") : Located h := by
  have ht := hg.isText_winner
  refine hg.of_parent_eq hs.1 ?_ ?_ hw hh
  · rw [hs.2.isDefined _ ht, hg.winner, Bool.or_true]
  · rw [hs.2.parent _ ht, if_neg hx]

theorem take (hg : Located g) {x : Value} {s : Store} (hscope : g.inScope x)
    (hmove : Store.move x (g.global "WINNER") g.store = .ok () s) :
    Located { g with store := s.update x (·.setFlag Play.touchedFlag) } := by
  have hd := isDefined_of_inScope hscope
  have hx := hg.reachable.isText_of_isDefined hd
  have hs := hg.reachable.move hd (.of_isText hg.isText_winner) hmove
  have hne : x.string? ≠ (g.global "WINNER").string? := by
    have hfree := (hg.reachable.nested.obstacle?_eq_none_iff hx hg.isText_winner).1 hs.2.free
    intro he
    refine hfree (.inl ?_)
    rw [Value.same_eq_of_isText _ hx, he, beq_self_eq_true]
  have hmoved : Located { g with store := s } := hg.of_places hs hne rfl rfl
  have hset := Store.setFlag_eq_ok (s := s) (Value.hashable_of_isText hx)
    (Value.isNone_eq_false_of_isText hx) (show Play.touchedFlag.hashable from rfl)
  exact hmoved.of_keeps (hs.1.setFlag hx hset) rfl rfl

theorem drop (hg : Located g) {x : Value} {s : Store}
    (hheld : Value.same (g.store.parent x) (g.global "WINNER"))
    (hmove : Store.move x (g.global "HERE") g.store = .ok () s) :
    Located { g with store := s } := by
  have hw := hg.isText_winner
  rw [Value.same_eq_of_isText _ hw, beq_iff_eq] at hheld
  have hpt : (g.store.parent x).isText := by rwa [Value.isText, hheld]
  have hd := Store.isDefined_of_parent _ (Value.isNone_eq_false_of_isText hpt)
  have hs := hg.reachable.move hd (.of_isText hg.isText_here) hmove
  refine hg.of_places hs (fun he ↦ ?_) rfl rfl
  -- What the winner holds is not the winner, or the winner would be inside itself.
  refine hg.reachable.nested.not_inside_self hw ⟨0, ?_⟩
  rw [Function.iterate_one, Value.same_eq_of_isText _ hw, beq_iff_eq,
    Store.parent_congr _ (Store.find?_congr _ hw he.symm), hheld]

theorem walk (hg : Located g) {room : Value} {s : Store} (hroom : g.store.isDefined room)
    (hmove : Store.move (g.global "WINNER") room g.store = .ok () s) :
    Located { g.assign "HERE" room with store := s } := by
  have hr := hg.reachable.isText_of_isDefined hroom
  obtain ⟨hreach, hpl⟩ := hg.reachable.move hg.winner (.of_isText hr) hmove
  have hhere : ({ g.assign "HERE" room with store := s } : Game).global "HERE" = room :=
    (global_assign g "HERE" room "HERE").trans (if_pos rfl)
  have hwinner : ({ g.assign "HERE" room with store := s } : Game).global "WINNER" =
      g.global "WINNER" :=
    (global_assign g "HERE" room "WINNER").trans (if_neg (by decide))
  refine ⟨hreach, ?_, ?_, ?_⟩
  · rw [hwinner, hpl.isDefined _ hpl.isText, beq_self_eq_true, Bool.true_or]
  · rw [hhere, hwinner, hpl.parent _ hpl.isText, if_pos rfl, Value.same_eq_of_isText _ hr,
      beq_self_eq_true]
  · rw [hhere]
    exact Value.isNone_eq_false_of_isText hr

theorem assign (hg : Located g) (name : String) (v : Value)
    (hw : name ≠ "WINNER") (hh : name ≠ "HERE") :
    Located (g.assign name v) :=
  hg.of_parent_eq hg.reachable hg.winner rfl ((global_assign g name v _).trans (if_neg hw))
    ((global_assign g name v _).trans (if_neg hh))

/-- No step takes the winner out of the room without its knowing. -/
theorem step (hg : Located g) (hs : Step g h) : Located h := by
  cases hs with
  | tells ht =>
    refine hg.of_parent_eq (ht.store ▸ hg.reachable) (ht.store ▸ hg.winner) ?_
      (ht.global _) (ht.global _)
    rw [ht.store]
  | asks tag direct indirect =>
    have ha := hg.assign "PRSA" tag (by decide) (by decide)
    have hd := ha.assign "PRSO" direct (by decide) (by decide)
    exact hd.assign "PRSI" indirect (by decide) (by decide)
  | takes hscope htakeable hfree hmove hscore => exact hg.take hscope hmove
  | takesFirst hscope htakeable hfree hmove huntouched htotal =>
    exact (hg.take hscope hmove).assign "SCORE" _ (by decide) (by decide)
  | drops hheld hmove => exact hg.drop hheld hmove
  | opens hscope hcontainer hset =>
    have hx := hg.reachable.isText_of_isDefined (isDefined_of_inScope hscope)
    exact hg.of_keeps (hg.reachable.setFlag hx hset) rfl rfl
  | closes hscope hcontainer hclear =>
    have hx := hg.reachable.isText_of_isDefined (isDefined_of_inScope hscope)
    exact hg.of_keeps (hg.reachable.clearFlag hx hclear) rfl rfl
  | walks hroom hmove => exact hg.walk hroom hmove
  | describes hset => exact hg.of_keeps (hg.reachable.setFlag hg.isText_here hset) rfl rfl
  | dies =>
    have hd := hg.assign "DEAD-FLAG" (.bool true) (by decide) (by decide)
    exact ⟨hd.reachable, hd.winner, hd.here, hd.somewhere⟩
  | wins =>
    have hw := hg.assign "WON-FLAG" (.bool true) (by decide) (by decide)
    exact ⟨hw.reachable, hw.winner, hw.here, hw.somewhere⟩

theorem steps (hg : Located g) (hs : Steps g h) : Located h := by
  induction hs with
  | refl => exact hg
  | tail _ hstep ih => exact ih.step hstep

end Located

/-- The game after some commands, each of which may also fail or end the game. -/
def afterCommands (g : Game) (commands : List Command) : Game :=
  commands.foldl (fun g c ↦ Runs.after (Play.perform Play.exec c.verb c.direct c.indirect) g) g

theorem afterCommands_steps (hv : g.OnlyVerbs) (ha : g.store.Actionless) (commands : List Command) :
    Steps g (g.afterCommands commands) := by
  induction commands generalizing g with
  | nil => exact .refl
  | cons c commands ih =>
    have hc := Play.perform_steps hv ha c.verb c.direct c.indirect
    have hv' : (Runs.after (Play.perform Play.exec c.verb c.direct c.indirect) g).OnlyVerbs :=
      fun name r hr ↦ hv name r (hc.routines ▸ hr)
    exact hc.trans (ih hv' (hc.actionless ha))

/-- Where the winner is according to the global, there it is according to its record, after any
commands. -/
theorem located_afterCommands (hg : g.Located) (hv : g.OnlyVerbs) (ha : g.store.Actionless)
    (commands : List Command) : (g.afterCommands commands).Located :=
  hg.steps (afterCommands_steps hv ha commands)

def bareHall : Game where
  store := .history [
    .define (.text "HALL") { properties := .dict [(.text "NORTH", .text "YARD")] },
    .define (.text "YARD") {},
    .define (.text "PLAYER") { parent := .text "HALL" }]
  globals := [(.text "WINNER", .text "PLAYER"), (.text "HERE", .text "HALL")]

/-- The player stands in a hall that leads north to a yard, and knows the standard verbs. -/
def hall : Game := Runs.after Play.installStandardVerbs bareHall

theorem reachable_bareHall : bareHall.store.Reachable :=
  Store.reachable_history (by decide +kernel)

/-- The player walks north, fails to take the yard, and quits. -/
theorem located_in_yard :
    hall.Located ∧ hall.OnlyVerbs ∧ hall.store.Actionless ∧
      let g := hall.afterCommands
        [⟨.text "WALK", .text "NORTH", .none⟩, ⟨.text "TAKE", .text "YARD", .none⟩,
        ⟨.text "QUIT", .none, .none⟩]
      g.Located ∧ (g.global "HERE").string? = some "YARD" := by
  have hstore : hall.store = bareHall.store := Play.store_installed bareHall
  have hreachable : hall.store.Reachable := by
    rw [hstore]
    exact reachable_bareHall
  have hlocated : hall.Located :=
    ⟨hreachable, by decide +kernel, by decide +kernel, by decide +kernel⟩
  have hverbs : hall.OnlyVerbs :=
    Play.onlyVerbs_installed fun name r hr ↦ by simp [bareHall, Table.find?] at hr
  have hactions : hall.store.Actionless := by decide +kernel
  refine ⟨hlocated, hverbs, hactions, located_afterCommands hlocated hverbs hactions _, ?_⟩
  decide +kernel

end Game

end Fable
