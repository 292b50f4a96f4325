import Fable.Proofs.Scenes

namespace Fable

namespace Game

structure ShowsDeath (g : Game) : Prop where
  dead : g.dead
  flag : g.global "DEAD-FLAG" = .bool true
  banner : ∃ line, g.config.deathBanner.add (.text "\n") = .ok line ∧ g.written.back? = some line

structure ShowsVictory (g : Game) : Prop where
  won : g.won
  flag : g.global "WON-FLAG" = .bool true
  banner : ∃ start line, (Value.text "\n").add g.config.victoryBanner = .ok start ∧
    start.add (.text "\n") = .ok line ∧ g.written.back? = some line

variable {g : Game}

theorem showsDeath_fallen (message : Value) {banner : Value}
    (h : g.config.deathBanner.add (.text "\n") = .ok banner) :
    (g.fallen message banner).ShowsDeath where
  dead := rfl
  flag := (global_assign _ _ _ _).trans (if_pos rfl)
  banner := ⟨banner, h, Array.back?_push⟩

theorem showsVictory_triumphant {start banner : Value}
    (hstart : (Value.text "\n").add g.config.victoryBanner = .ok start)
    (hbanner : start.add (.text "\n") = .ok banner) : (g.triumphant banner).ShowsVictory where
  won := rfl
  flag := (global_assign _ _ _ _).trans (if_pos rfl)
  banner := ⟨start, banner, hstart, hbanner, Array.back?_push⟩

theorem ShowsDeath.noted (hg : g.ShowsDeath) (e : Event) : (g.noted e).ShowsDeath :=
  ⟨hg.dead, hg.flag, hg.banner⟩

theorem ShowsVictory.noted (hg : g.ShowsVictory) (e : Event) : (g.noted e).ShowsVictory :=
  ⟨hg.won, hg.flag, hg.banner⟩

theorem moves_fallen (g : Game) (message banner : Value) :
    (g.fallen message banner).globalOr "MOVES" (.int 0) = g.globalOr "MOVES" (.int 0) :=
  (globalOr_assign _ _ _ _ _).trans (if_neg (by decide))

theorem moves_triumphant (g : Game) (banner : Value) :
    (g.triumphant banner).globalOr "MOVES" (.int 0) = g.globalOr "MOVES" (.int 0) :=
  (globalOr_assign _ _ _ _ _).trans (if_neg (by decide))

end Game

namespace Finale

open Play

variable {α : Type} {f : Finale} {k h : Game} {r : Reason}

theorem reason_of_ends (hf : (f.play : Play α).Ends k r h) : r = f.reason := by
  cases f with
  | death message => exact (ends_die.1 hf).1
  | victory => exact (ends_win.1 hf).1
  | farewell =>
    cases hf
    rfl

end Finale

namespace Scene

open Play Relation

variable {n : Nat} {m : Mode} {lines : List Value} {start : Value} {g h k : Game} {r : Reason}

/-- A session comes to a finale in the game `k`, and the game is `h` when it ends: while the first
room is entered, or in the turn of a line, which is not counted as a move yet. -/
structure CutShort (s : Scene) (f : Finale) (k h : Game) : Prop where
  reached : ∃ t : Scene, ReflTransGen Opens s t ∧
    ((∃ start, t.activity = .enter start) ∨ ∃ m line, t.activity = .turn m line) ∧ t.Reaches f k
  ended : (f.play : Play Value).Ends k f.reason h

theorem CutShort.reaches {s : Scene} {f : Finale} (hs : s.CutShort f k h) : s.Reaches f k := by
  obtain ⟨t, hopens, -, n, hreach⟩ := hs.reached
  exact ⟨n, hopens.trans hreach⟩

theorem exists_turn_of_ends (hs : Ends ⟨n, .turns m lines, g⟩ r h) :
    ∃ line u, ReflTransGen Opens ⟨n, .turns m lines, g⟩ ⟨n, .turn m line, u⟩ ∧
      Ends ⟨n, .turn m line, u⟩ r h := by
  induction lines generalizing g with
  | nil => exact absurd hs (Plain.turns_nil (execWithin n) (m.resolve n) _).not_ends
  | cons line lines ih =>
    obtain ⟨hline, hlimit, hs | ⟨k, hk, hs⟩⟩ := ends_turns_cons.1 hs
    · obtain ⟨l, u, hl, hblank, hu, hs⟩ := ends_pass.1 hs
      exact ⟨_, u, .head (.pass hline hlimit) (.single (.turn hl hblank hu)), hs⟩
    · obtain ⟨l, u, hopens, hs⟩ := ih hs
      exact ⟨l, u, .head (.turns hline hlimit hk) hopens, hs⟩

theorem exists_cutShort (hs : Ends ⟨n, .session m lines start, g⟩ r h) :
    ∃ f k, f.reason = r ∧ CutShort ⟨n, .session m lines start, g⟩ f k h := by
  obtain hs | ⟨u, hu, hs⟩ := ends_seq.1 hs
  · obtain ⟨f, k, hreach, hf⟩ := exists_reaches (s := ⟨n, .enter start, g⟩) hs
    obtain rfl := f.reason_of_ends hf
    exact ⟨f, k, rfl, ⟨_, .single .enter, .inl ⟨start, rfl⟩, hreach⟩, hf⟩
  · obtain ⟨line, v, hopens, hs⟩ := exists_turn_of_ends hs
    obtain ⟨f, k, hreach, hf⟩ := exists_reaches hs
    obtain rfl := f.reason_of_ends hf
    exact ⟨f, k, rfl, ⟨_, .head (.session hu) hopens, .inr ⟨m, line, rfl⟩, hreach⟩, hf⟩

end Scene

namespace Play

open Runs Scene

variable {exec : Exec} {resolve : String → Play (Option Command)}
  {source : Source} {lines : List Value}
  {start : Value} {g k : Game} {r : Reason}

theorem run_of_ends (hs : (session exec resolve source lines start).Ends g r k) :
    run exec resolve source lines start g = .ok (k.result r) (k.noted (.ended r)) := by
  rw [run_eq, hs]
  rfl

theorem of_run_ok {score moves : Value} {diagnostics : List String} {stamp : Nat} {final : Game}
    (hrun : run exec resolve source lines start g =
      .ok (.outcome r score moves diagnostics stamp) final)
    (hquit : r ≠ .quit) (hlimit : r ≠ .limit) :
    ∃ k, (session exec resolve source lines start).Ends g r k ∧
      moves = k.globalOr "MOVES" (.int 0) ∧
      final = k.noted (.ended r) := by
  obtain ⟨reason, k, hresult, rfl, ⟨-, hreason⟩ | hs⟩ := session_of_run_ok hrun
  · cases hresult
    cases hreason <;> contradiction
  · cases hresult
    exact ⟨k, hs, rfl, rfl⟩

/-- If a session comes to a finale, at whatever depth, then what it returns is the game as it was
when it ended, with one more line in the log. So a session in which the player has died, or won,
returns a game that shows it, and the fatal command is not counted as a move. -/
theorem nothing_after_the_end (n : Nat) (m : Mode) (lines : List Value) (start : Value) (g : Game) :
    (∀ f k h, Reaches ⟨n, .session m lines start, g⟩ f k →
      (f.play : Play Value) k = .error (.ended f.reason) h →
      run (execWithin n) (m.resolve n) m.source lines start g =
        .ok (h.result f.reason) (h.noted (.ended f.reason))) ∧
    (∀ score moves diagnostics stamp final,
      run (execWithin n) (m.resolve n) m.source lines start g =
        .ok (.outcome .died score moves diagnostics stamp) final →
      ∃ message k h, CutShort ⟨n, .session m lines start, g⟩ (.death message) k h ∧
        final = h.noted (.ended .died) ∧ final.ShowsDeath ∧ moves = k.globalOr "MOVES" (.int 0)) ∧
    ∀ score moves diagnostics stamp final,
      run (execWithin n) (m.resolve n) m.source lines start g =
        .ok (.outcome .won score moves diagnostics stamp) final →
      ∃ k h, CutShort ⟨n, .session m lines start, g⟩ .victory k h ∧
        final = h.noted (.ended .won) ∧ final.ShowsVictory ∧
          moves = k.globalOr "MOVES" (.int 0) := by
  refine ⟨?_, ?_, ?_⟩
  · intro f k h hreach hf
    exact run_of_ends (hreach.ends hf)
  · intro score moves diagnostics stamp final hrun
    obtain ⟨h, hs, rfl, rfl⟩ := of_run_ok hrun nofun nofun
    obtain ⟨f, k, hf, hcut⟩ := exists_cutShort (n := n) hs
    cases f with
    | victory | farewell => cases hf
    | death message =>
      obtain ⟨-, banner, hbanner, rfl⟩ := ends_die.1 hcut.ended
      have hshows := (Game.showsDeath_fallen message hbanner).noted (.ended .died)
      exact ⟨message, k, _, hcut, rfl, hshows, Game.moves_fallen k message banner⟩
  · intro score moves diagnostics stamp final hrun
    obtain ⟨h, hs, rfl, rfl⟩ := of_run_ok hrun nofun nofun
    obtain ⟨f, k, hf, hcut⟩ := exists_cutShort (n := n) hs
    cases f with
    | death | farewell => cases hf
    | victory =>
      obtain ⟨-, line, banner, hline, hbanner, rfl⟩ := ends_win.1 hcut.ended
      have hshows := (Game.showsVictory_triumphant hline hbanner).noted (.ended .won)
      exact ⟨k, _, hcut, rfl, hshows, Game.moves_triumphant k banner⟩

def crypt : Game where
  routines := [
    (.text "V-STAB", .routine ⟨"stab", 1, .code (.block [
      .cond [[.attempt (.op .call [.text "SPRING"]), .op .tell [.text "Nothing happens."]]],
      .op .tell [.text "You go on."]])⟩),
    (.text "SPRING", .routine ⟨"spring", 2, .code (.op .die [.text "A blade springs out."])⟩)]

def stabbing : Mode := ⟨.script false, .text "WALK", some (.list [.text "STAB"])⟩

def stabs : List Value := [.text "stab", .text "stab again"]

theorem blade_ends_session :
    ended? (session (execWithin 3) (stabbing.resolve 3) stabbing.source stabs .none) crypt =
      some .died ∧
      ∃ message k h, CutShort ⟨3, .session stabbing stabs .none, crypt⟩ (.death message) k h ∧
        run (execWithin 3) (stabbing.resolve 3) stabbing.source stabs .none crypt =
          .ok (h.result .died) (h.noted (.ended .died)) ∧ (h.noted (.ended .died)).ShowsDeath := by
  have hdied :
      ended? (session (execWithin 3) (stabbing.resolve 3) stabbing.source stabs .none) crypt =
      some .died := by decide +kernel
  have hs : Scene.Ends ⟨3, .session stabbing stabs .none, crypt⟩ .died _ := ends_of_ended? hdied
  obtain ⟨hfinal, hdeath, -⟩ := nothing_after_the_end 3 stabbing stabs .none crypt
  obtain ⟨message, k, h, hcut, hnoted, hshows, -⟩ := hdeath _ _ _ _ _ (run_of_ends hs)
  exact ⟨hdied, message, k, h, hcut, hfinal (.death message) k h hcut.reaches hcut.ended,
    hnoted ▸ hshows⟩

end Play

end Fable
