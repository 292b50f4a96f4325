import Fable.Proofs.Walks

namespace Fable

namespace Play

open Runs Game

variable {exec : Exec} {g h : Game} {room : Value} {r : Reason} {c : Command}

/-- Nothing takes a command but its verb. -/
theorem offer_of_housed (hg : g.Housed) {direct indirect : Value} (hd : direct.hashable)
    (hi : indirect.hashable) (tag : Value) :
    offer Play.exec tag direct indirect g = offerVerb Play.exec tag g := by
  refine offer_of_actionless Play.exec hg.actionless ⟨fun _ ↦ ?_, ?_⟩ hd hi tag
  · exact Value.hashable_of_isText hg.isText_winner
  · exact Value.hashable_of_isText hg.isText_here

theorem perform_eq_offerVerb (hg : g.Housed) (hv : c.verb.hashable) (hd : c.direct.hashable)
    (hi : c.indirect.hashable) :
    perform Play.exec c.verb c.direct c.indirect g = (do
      let handled ← offerVerb Play.exec (g.verbTag c.verb)
      discard <| applyAction Play.exec ((← get).global "HERE") (.message .after)
      pure handled.truthy : Play Bool) (g.asked (g.verbTag c.verb) c.direct c.indirect) := by
  let k := g.asked (g.verbTag c.verb) c.direct c.indirect
  have hk : k.Housed := Steps.housed (.single (.asks g _ _ _)) hg
  have hoffer := offer_of_housed hk hd hi (g.verbTag c.verb)
  rw [perform, bind_of_ok (verbTag_of_hashable hv g)]
  change (offer Play.exec (g.verbTag c.verb) c.direct c.indirect >>= _) k = _
  cases hb : offerVerb Play.exec (g.verbTag c.verb) k with
  | ok a m => rw [bind_of_ok (hoffer.trans hb), bind_of_ok hb]
  | error e m => rw [bind_of_error (hoffer.trans hb), bind_of_error hb]

/-- What is left of a command that enters a room once the player is there. -/
theorem walk_of_enters (hg : g.Housed) (hc : g.Enters c room)
    (hd : c.direct.hashable) (exec : Exec) :
    ∃ m, Steps g m ∧ m.global "HERE" = room ∧
      walk exec (g.asked (g.verbTag c.verb) c.direct c.indirect) = (do
      describeRoom false
      arrive room
      returnTrue : Play Value) m := by
  let k := g.asked (g.verbTag c.verb) c.direct c.indirect
  have hasked : Steps g k := .single (.asks g _ _ _)
  have hdirect : k.global "PRSO" = c.direct := direct_asked ..
  have hhere : k.global "HERE" = g.global "HERE" := here_asked ..
  obtain ⟨s, hs⟩ := hc.moved
  rw [← winner_asked g (g.verbTag c.verb) c.direct c.indirect] at hs
  have hexit : k.store.property (k.global "HERE") (k.global "PRSO") .none = room := by
    rw [hdirect, hhere]
    exact hc.exit
  obtain ⟨out, hrun⟩ :=
    walk_of_exit (hasked.housed hg) (hdirect ▸ hd) (hdirect ▸ hc.direction) hexit hc.defined hs exec
  have htold : k.Told (k.wrote out) := k.told_wrote out
  refine ⟨_, (hasked.tail (.tells htold)).tail (.walks ?_ ?_), ?_, hrun⟩
  · exact hc.defined
  · exact hs
  · exact (global_assign (k.wrote out) "HERE" room "HERE").trans (if_pos rfl)

theorem told_goTo_of_error {f : Fault} {v : Value}
    (hs : Store.move (g.global "WINNER") room g.store = .error f s)
    (hgo : goTo exec room g = .ok v h) : g.Told h := by
  have htold : g.Told (after (goTo exec room) g) := told_bind_of_move_error hs (.pure _)
  rwa [after_of_ok hgo] at htold

/-- A refused move would have to be one into the room where the player is, and that is not
refused. -/
theorem exists_move_of_walk_ends (hg : g.Located) (hends : Ends (walk exec) g r h) : ∃ room s,
    (g.global "PRSO").truthy ∧ g.store.property (g.global "HERE") (g.global "PRSO") .none = room ∧
      g.store.isDefined room ∧ Store.move (g.global "WINNER") room g.store = .ok () s := by
  obtain ⟨room, u, hset, hgo⟩ := ends_walk.1 hends
  obtain ⟨hdirection, hexit, hdefined, htold⟩ := of_setOut hset
  cases hs : Store.move (g.global "WINNER") room g.store with
  | ok _ s => exact ⟨room, s, hdirection, hexit, hdefined, hs⟩
  | error f s =>
    have hs' := hs
    rw [← htold.global, ← htold.store] at hs'
    rcases hgo with hgo | ⟨handled, m, o, hgo, hhere, -⟩
    · obtain ⟨k, hmove, -⟩ := ends_goTo.1 hgo
      exact absurd hmove (ne_true_of_error hs')
    · rw [(told_goTo_of_error hs' hgo).global, htold.global] at hhere
      obtain ⟨t, ht⟩ := exists_move_of_here hg hdefined hhere
      cases hs.symm.trans ht

theorem exists_enters_of_walk_ends (hg : g.Housed) (hv : c.verb.hashable) (hcalls : g.Calls c .walk)
    (hends : Ends (walk exec) (g.asked (g.verbTag c.verb) c.direct c.indirect) r h) :
    ∃ room, g.Enters c room := by
  let k := g.asked (g.verbTag c.verb) c.direct c.indirect
  have hk : k.Housed := Steps.housed (.single (.asks g _ _ _)) hg
  have hdirect : k.global "PRSO" = c.direct := direct_asked ..
  have hhere : k.global "HERE" = g.global "HERE" := here_asked ..
  have hwinner : k.global "WINNER" = g.global "WINNER" := winner_asked ..
  obtain ⟨room, s, hdirection, hexit, hdefined, hs⟩ := exists_move_of_walk_ends hk.toLocated hends
  rw [hdirect] at hdirection
  rw [hdirect, hhere] at hexit
  rw [hwinner] at hs
  exact ⟨room, hv, hcalls, hdirection, hexit, hdefined, s, hs⟩

theorem ends_standardVerb (ha : g.store.Actionless) {v : StandardVerb}
    (hends : Ends (standardVerb exec v) g r h) :
    v = .quit ∧ r = .quit ∨ v = .walk := by
  cases v with
  | look =>
    obtain ⟨k, htell, hlook⟩ := ends_look.1 hends
    obtain ⟨q, -, hq, hsome, -⟩ := ends_applyAction.1 hlook
    rw [(Quiet.told_of_ok (.tell _) htell).store] at hq
    rw [ha.isNone hq] at hsome
    cases hsome
  | examine => exact absurd hends Verbal.examine.plain.not_ends
  | take => exact absurd hends Verbal.take.plain.not_ends
  | drop => exact absurd hends Verbal.drop.plain.not_ends
  | inventory => exact absurd hends Verbal.inventory.plain.not_ends
  | openUp => exact absurd hends Verbal.openUp.plain.not_ends
  | closeUp => exact absurd hends Verbal.closeUp.plain.not_ends
  | walk => exact .inr rfl
  | score => exact absurd hends Verbal.showScore.plain.not_ends
  | quit =>
    cases hends
    exact .inl ⟨rfl, rfl⟩

theorem exists_calls_of_ends (hg : g.Housed) (hv : c.verb.hashable) (hd : c.direct.hashable)
    (hi : c.indirect.hashable) (hends : Ends (perform Play.exec c.verb c.direct c.indirect) g r h) :
    ∃ v, g.Calls c v ∧
      Ends (standardVerb innerExec v) (g.asked (g.verbTag c.verb) c.direct c.indirect) r h := by
  let k := g.asked (g.verbTag c.verb) c.direct c.indirect
  have hk : k.Housed := Steps.housed (.single (.asks g _ _ _)) hg
  rw [Ends, perform_eq_offerVerb hg hv hd hi] at hends
  rcases ends_bind.1 hends with hverb | ⟨handled, m, hverb, hroom⟩
  · have htext : Plain (text (g.verbTag c.verb)) := .get_bind (fun _ ↦ .lift _) fun _ _ ↦ rfl
    obtain ⟨t, m, ht, hcall⟩ := htext.ends_bind.1 hverb
    rw [text, get_bind] at ht
    obtain rfl := of_lift ht
    rw [ends_get_bind] at hcall
    split at hcall
    · obtain ⟨q, -, hq, -, hexec⟩ := ends_call.1 hcall
      obtain ⟨q, v, rfl, hbody⟩ := hk.verbs _ q hq
      rw [exec_of_verb hbody] at hexec
      exact ⟨v, ⟨t, q, ok_of_lift ht, hq, hbody⟩, hexec⟩
    · exact absurd hcall (Plain.bind (.tell _) fun _ ↦ .pure _).not_ends
  · -- The room that hears of the end has no action.
    have hm := (offerVerb_steps hk.verbs hk.actionless (g.verbTag c.verb)).actionless hk.actionless
    rw [after_of_ok hverb] at hm
    rw [ends_get_bind, ends_bind_plain fun _ ↦ .pure _, ends_discard] at hroom
    obtain ⟨q, -, hq, hsome, -⟩ := ends_applyAction.1 hroom
    rw [hm.isNone hq] at hsome
    cases hsome

/-- A command that enters a room moves the player there. -/
theorem here_of_enters (hg : g.Housed) (hc : g.Enters c room) (hd : c.direct.hashable)
    (hi : c.indirect.hashable) :
    (g.afterCommands [c]).global "HERE" = room ∧
      Value.same room ((g.afterCommands [c]).store.parent (g.global "WINNER")) := by
  let k := g.asked (g.verbTag c.verb) c.direct c.indirect
  obtain ⟨m, -, hhere, hwalk⟩ := walk_of_enters hg hc hd innerExec
  obtain ⟨t, q, ht, hq, hbody⟩ := hc.calls
  have hafter : (g.afterCommands [c]).global "HERE" = room := by
    have hk : k.Housed := Steps.housed (.single (.asks g _ _ _)) hg
    have hoffer : after (offer Play.exec (g.verbTag c.verb) c.direct c.indirect) k =
        after (standardVerb innerExec .walk) k := by
      rw [after, offer_of_housed hk hd hi, offerVerb_of_routine (g := k) ht hq hbody,
        ← after, after_boundary]
    change (after (perform Play.exec c.verb c.direct c.indirect) g).global "HERE" = room
    rw [after_perform_of_hashable hg.verbs hg.actionless hc.verb, hoffer, after,
      standardVerb, hwalk, ← after]
    exact (Glimpses.rests (enter_glimpses false room m)).here.trans hhere
  have hsteps := afterCommands_steps hg.verbs hg.actionless [c]
  have hlocated := (hsteps.housed hg).here
  rw [hafter, hsteps.lasts.1] at hlocated
  exact ⟨hafter, hlocated⟩

/-- Only the command to quit and walks into certain rooms end the game. -/
theorem reason_of_perform_ends (hg : g.Housed) (hd : c.direct.hashable) (hi : c.indirect.hashable)
    (hends : Ends (perform Play.exec c.verb c.direct c.indirect) g r h) :
    r = .quit ∧ g.Calls c .quit ∨ g.Meets c r := by
  have hv : c.verb.hashable := (ends_perform.1 hends).1
  obtain ⟨v, hcalls, hverb⟩ := exists_calls_of_ends hg hv hd hi hends
  let k := g.asked (g.verbTag c.verb) c.direct c.indirect
  rcases ends_standardVerb (g := k) hg.actionless hverb with ⟨rfl, rfl⟩ | rfl
  · exact .inl ⟨rfl, hcalls⟩
  · obtain ⟨room, hc⟩ := exists_enters_of_walk_ends hg hv hcalls hverb
    obtain ⟨m, hsteps, -, hwalk⟩ := walk_of_enters hg hc hd innerExec
    rw [Ends, standardVerb, hwalk] at hverb
    obtain ⟨o, hdescribe, harrive⟩ := (Verbal.describeRoom false).plain.ends_seq.1 hverb
    have hkept := Glimpses.steps (describeRoom_glimpses false m)
    rw [after_of_ok hdescribe] at hkept
    have hroom := reason_of_arrive_ends ((ends_bind_plain fun _ ↦ .signal _).1 harrive)
    rw [hkept.deadly, hkept.winning, hsteps.deadly, hsteps.winning] at hroom
    rcases hroom with ⟨rfl, hdead⟩ | ⟨rfl, hwin⟩
    · exact .inr (.death hc hdead)
    · exact .inr (.victory hc hwin)

theorem reason_of_meets (hc : g.Meets c r) (hg : g.Housed) (hd : c.direct.hashable)
    (hi : c.indirect.hashable) {q : Reason}
    (hends : Ends (perform Play.exec c.verb c.direct c.indirect) g q h) : q = r := by
  rcases reason_of_perform_ends hg hd hi hends with ⟨-, hquit⟩ | hmeets
  · obtain ⟨room, henters, -⟩ := hc.exists_enters
    cases hquit.unique henters.calls
  · exact hc.unique hmeets

/-- What a walk comes to in the room is what the command comes to. -/
theorem perform_of_walk_error (hg : g.Housed) (hc : g.Enters c room) (hd : c.direct.hashable)
    (hi : c.indirect.hashable) {e : Exit} (he : ∀ s, e ≠ .signal s)
    (hwalk : standardVerb innerExec .walk (g.asked (g.verbTag c.verb) c.direct c.indirect) =
      .error e h) :
    perform Play.exec c.verb c.direct c.indirect g = .error e h := by
  let k := g.asked (g.verbTag c.verb) c.direct c.indirect
  obtain ⟨t, q, ht, hq, hbody⟩ := hc.calls
  have hverb : offerVerb Play.exec (g.verbTag c.verb) k = .error e h := by
    rw [offerVerb_of_routine (g := k) ht hq hbody, boundary_of_exit hwalk he]
  rw [perform_eq_offerVerb hg hc.verb hd hi, bind_of_error hverb]

/-- No command is finished that takes the player into a room that ends the game. -/
theorem exists_perform_error (hg : g.Housed) (hd : c.direct.hashable)
    (hi : c.indirect.hashable) (hc : g.Meets c r) :
    ∃ e h, perform Play.exec c.verb c.direct c.indirect g = .error e h := by
  obtain ⟨room, henters, hroom⟩ := hc.exists_enters
  obtain ⟨m, hsteps, -, hwalk⟩ := walk_of_enters hg henters hd innerExec
  cases hdescribe : describeRoom false m with
  | error e o =>
    rw [bind_of_error hdescribe] at hwalk
    have hsignal := (Obeys.describeRoom false).ne_signal hdescribe
    exact ⟨e, o, perform_of_walk_error hg henters hd hi hsignal hwalk⟩
  | ok _ o =>
    have hkept := Glimpses.steps (describeRoom_glimpses false m)
    rw [after_of_ok hdescribe] at hkept
    rw [← hsteps.deadly, ← hsteps.winning, ← hkept.deadly, ← hkept.winning] at hroom
    obtain ⟨e, n, harrive⟩ := exists_arrive_error hroom
    rw [bind_of_ok hdescribe, bind_of_error harrive] at hwalk
    have hsignal := (Obeys.arrive room).ne_signal harrive
    exact ⟨e, n, perform_of_walk_error hg henters hd hi hsignal hwalk⟩

/-- If all descriptions and banners are texts, nothing comes in between. -/
theorem exists_perform_ends (hg : g.Housed) (hlegible : g.Legible) (hd : c.direct.hashable)
    (hi : c.indirect.hashable) (hc : g.Meets c r) :
    ∃ h, Ends (perform Play.exec c.verb c.direct c.indirect) g r h := by
  have hends {room : Value} (henters : g.Enters c room)
      (harrive : ∀ o : Game, Steps g o → ∃ h, Ends (arrive room) o r h) :
      ∃ h, Ends (perform Play.exec c.verb c.direct c.indirect) g r h := by
    obtain ⟨m, hsteps, -, hwalk⟩ := walk_of_enters hg henters hd innerExec
    obtain ⟨o, hdescribe⟩ :=
      exists_describeRoom (hsteps.legible hlegible) (hsteps.housed hg).toLocated
    have hkept := Glimpses.steps (describeRoom_glimpses false m)
    rw [after_of_ok hdescribe] at hkept
    obtain ⟨h, hends⟩ := harrive o (hsteps.trans hkept)
    rw [bind_of_ok hdescribe, bind_of_error hends] at hwalk
    exact ⟨h, perform_of_walk_error hg henters hd hi nofun hwalk⟩
  cases hc with
  | @death room henters hdead =>
    exact hends henters fun o ho ↦ exists_arrive_died (ho.legible hlegible) (ho.deadly room ▸ hdead)
  | @victory room henters hwin =>
    exact hends henters fun o ho ↦ exists_arrive_won (ho.legible hlegible) (ho.winning room ▸ hwin)

end Play

end Fable
