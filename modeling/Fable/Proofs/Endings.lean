import Fable.Proofs.Plain
import Fable.Proofs.Sessions

namespace Fable

namespace Game

def fallen (g : Game) (message banner : Value) : Game :=
  { (g.wrote [message, .text "\n\n", banner]).assign "DEAD-FLAG" (.bool true) with
    dead := true, log := g.log.push (.died message) }

def triumphant (g : Game) (banner : Value) : Game :=
  { (g.wrote [banner]).assign "WON-FLAG" (.bool true) with
    won := true, log := g.log.push (.won ((g.assign "WON-FLAG" (.bool true)).global "SCORE")) }

end Game

namespace Play

open Runs

variable {α β : Type} {x : Play α} {g h : Game} {r : Reason}

/-- The game ends in the computation, and is `h` then. -/
def Ends (p : Play α) (g : Game) (r : Reason) (h : Game) : Prop := p g = .error (.ended r) h

def ended? (p : Play α) (g : Game) : Option Reason :=
  match p g with
  | .error (.ended r) _ => some r
  | _ => none

theorem ends_of_ended? {p : Play α} (hp : ended? p g = some r) : p.Ends g r (after p g) := by
  unfold ended? at hp
  split at hp
  · next q k hrun =>
    cases hp
    rw [after_of_error hrun]
    exact hrun
  · cases hp

theorem Plain.not_ends (hx : Plain x) : ¬ Ends x g r h := hx.unended g r h

theorem ends_bind {f : α → Play β} :
    Ends (x >>= f) g r h ↔ Ends x g r h ∨ ∃ a k, x g = .ok a k ∧ Ends (f a) k r h := by
  constructor
  · exact of_bind_error
  · rintro (hx | ⟨a, k, hx, hf⟩)
    · exact bind_of_error hx f
    · exact (bind_of_ok hx f).trans hf

theorem Plain.ends_bind (hx : Plain x) {f : α → Play β} :
    Ends (x >>= f) g r h ↔ ∃ a k, x g = .ok a k ∧ Ends (f a) k r h := by
  rw [Play.ends_bind, or_iff_right hx.not_ends]

theorem ends_seq {x : Play Unit} {f : Unit → Play β} :
    Ends (x >>= f) g r h ↔ Ends x g r h ∨ ∃ k, x g = .ok () k ∧ Ends (f ()) k r h := by
  rw [ends_bind]
  exact or_congr_right ⟨fun ⟨_, k, hk⟩ ↦ ⟨k, hk⟩, fun ⟨k, hk⟩ ↦ ⟨(), k, hk⟩⟩

theorem Plain.ends_seq {x : Play Unit} (hx : Plain x) {f : Unit → Play β} :
    Ends (x >>= f) g r h ↔ ∃ k, x g = .ok () k ∧ Ends (f ()) k r h := by
  rw [Play.ends_seq, or_iff_right hx.not_ends]

theorem ends_bind_plain {f : α → Play β} (hf : ∀ a, Plain (f a)) :
    Ends (x >>= f) g r h ↔ Ends x g r h := by
  rw [ends_bind, or_iff_left]
  rintro ⟨a, k, -, hk⟩
  exact (hf a).not_ends hk

theorem ends_discard : Ends (discard x) g r h ↔ Ends x g r h := ends_bind_plain fun _ ↦ .pure ()

theorem ends_get_bind {f : Game → Play β} : Ends (get >>= f) g r h ↔ Ends (f g) g r h := Iff.rfl

theorem ends_tryCatch {f : Exit → Play α} (hfault : ∀ e, Plain (f (.fault e)))
    (hsignal : ∀ s, Plain (f (.signal s))) (hended : ∀ q, f (.ended q) = throw (.ended q)) :
    Ends (tryCatch x f) g r h ↔ Ends x g r h := by
  unfold Ends
  cases hx : x g with
  | ok a k => rw [tryCatch_of_ok hx]
  | error e k =>
    rw [tryCatch_of_error hx]
    cases e with
    | fault e => exact iff_of_false (hfault e).not_ends (by simp)
    | signal s => exact iff_of_false (hsignal s).not_ends (by simp)
    | ended q =>
      rw [hended]
      rfl

theorem ends_boundary {p : Play Value} : Ends (boundary p) g r h ↔ Ends p g r h :=
  ends_tryCatch (fun _ ↦ .fail _) (fun _ ↦ .pure _) fun _ ↦ rfl

theorem ends_attempt {p : Play Value} : Ends (attempt p) g r h ↔ Ends p g r h :=
  ends_tryCatch (fun _ ↦ .pure _) (fun _ ↦ .signal _) fun _ ↦ rfl

theorem Plain.ends_ite {c : Prop} [Decidable c] {p : Play α} (hx : Plain x) :
    Ends (if c then x else p) g r h ↔ ¬ c ∧ Ends p g r h := by
  split
  · next hc => exact iff_of_false hx.not_ends fun hp ↦ hp.1 hc
  · next hc => rw [and_iff_right hc]

theorem ends_demand_bind {v : Value} {f : Unit → Play α} :
    Ends (demand v >>= f) g r h ↔ v.hashable ∧ Ends (f ()) g r h := by
  by_cases hv : v.hashable
  · rw [Ends, bind_of_ok (demand_of_hashable hv g), and_iff_right hv]
    rfl
  · rw [Ends, bind_of_error (demand_of_not_hashable hv g)]
    exact iff_of_false (by simp) fun hp ↦ hv hp.1

theorem die_bind (message : Value) (f : α → Play β) : (die message >>= f) = die message := by
  unfold die
  simp only [bind_assoc]
  rfl

theorem ends_die {message : Value} : Ends (die message : Play α) g r h ↔
    r = .died ∧ ∃ banner, g.config.deathBanner.add (.text "\n") = .ok banner ∧
      h = g.fallen message banner := by
  change (lift (g.config.deathBanner.add (.text "\n")) >>= _) (g.wrote [message, .text "\n\n"]) =
    _ ↔ _
  cases g.config.deathBanner.add (.text "\n") with
  | error f => exact iff_of_false (by rintro ⟨⟩) (by simp)
  | ok banner =>
    constructor
    · rintro ⟨⟩
      exact ⟨rfl, banner, rfl, rfl⟩
    · rintro ⟨rfl, _, ⟨⟩, rfl⟩
      rfl

theorem ends_win : Ends (win : Play α) g r h ↔
    r = .won ∧ ∃ line banner, (Value.text "\n").add g.config.victoryBanner = .ok line ∧
      line.add (.text "\n") = .ok banner ∧ h = g.triumphant banner := by
  change (lift ((Value.text "\n").add g.config.victoryBanner) >>= _) g = _ ↔ _
  cases (Value.text "\n").add g.config.victoryBanner with
  | error f => exact iff_of_false (by rintro ⟨⟩) (by simp)
  | ok line =>
    change (lift (line.add (.text "\n")) >>= _) g = _ ↔ _
    cases hb : line.add (.text "\n") with
    | error f => exact iff_of_false (by rintro ⟨⟩) (by simp [hb])
    | ok banner =>
      constructor
      · rintro ⟨⟩
        exact ⟨rfl, line, banner, rfl, hb, rfl⟩
      · rintro ⟨rfl, _, _, ⟨⟩, hb', rfl⟩
        cases hb.symm.trans hb'
        rfl

variable {exec : Exec}

theorem ends_call {name : Value} {args : List Value} :
    Ends (call exec name args) g r h ↔ ∃ q, name.hashable ∧
      g.routines.find? name = some q ∧ q.isNone = false ∧
      Ends (exec q args) g r h := by
  rw [call, routine, bind_assoc, ends_demand_bind, bind_assoc, ends_get_bind, pure_bind,
    (Plain.pure _).ends_ite, ends_boundary]
  cases g.routines.find? name with
  | none => simp [Value.isNone]
  | some q => simp

theorem ends_applyAction {object m : Value} :
    Ends (applyAction exec object m) g r h ↔ ∃ q, object.hashable ∧ g.store.find? object = some q ∧
      q.action.isNone = false ∧
      if q.action.isText then Ends (call exec q.action [m]) g r h
      else Ends (exec q.action [m]) g r h := by
  rw [applyAction, ends_demand_bind, ends_get_bind]
  cases g.store.find? object with
  | none => simp [(Plain.pure _).not_ends]
  | some q =>
    dsimp only
    rw [(Plain.pure _).ends_ite]
    split
    · simp [*]
    · simp [*, ends_boundary]

theorem ends_goTo {room : Value} :
    Ends (goTo exec room) g r h ↔ ∃ k, move (g.global "WINNER") room g = .ok true k ∧
      Ends (applyAction exec room (.message .look)) (k.assign "HERE" room) r h := by
  rw [goTo, ends_get_bind, (Plain.move _ _).ends_bind]
  constructor
  · rintro ⟨moved, k, hmove, hends⟩
    cases moved with
    | true => exact ⟨k, hmove, hends⟩
    | false => cases hends
  · rintro ⟨k, hmove, hends⟩
    exact ⟨true, k, hmove, hends⟩

theorem ends_walk : Ends (walk exec) g r h ↔ ∃ room k, setOut g = .ok room k ∧
    (Ends (goTo exec room) k r h ∨ ∃ handled m o, goTo exec room k = .ok handled m ∧
      Value.alike (m.global "HERE") room ∧ describeRoom handled.truthy m = .ok () o ∧
      Ends (arrive room) o r h) := by
  rw [walk_eq, Verbal.setOut.plain.ends_bind]
  refine exists_congr fun room ↦ exists_congr fun k ↦ and_congr_right fun _ ↦ ?_
  rw [ends_bind]
  refine or_congr_right (exists_congr fun handled ↦ exists_congr fun m ↦ ?_)
  have hrest : Ends (do
      describeRoom handled.truthy
      arrive room
      returnTrue : Play Value) m r h ↔
        ∃ o, describeRoom handled.truthy m = .ok () o ∧ Ends (arrive room) o r h := by
    rw [(Verbal.describeRoom _).plain.ends_seq]
    exact exists_congr fun o ↦ and_congr_right fun _ ↦ ends_bind_plain fun _ ↦ .signal _
  rw [exists_and_left, ends_get_bind, exists_and_left]
  refine and_congr_right fun _ ↦ ?_
  cases Value.alike (m.global "HERE") room with
  | false => exact iff_of_false (Plain.signal_bind _ _).not_ends (by simp)
  | true => exact hrest.trans (and_iff_right rfl).symm

theorem ends_look :
    Ends (look exec) g r h ↔ ∃ k, tell [desc, g.global "HERE", newline] g = .ok () k ∧
    Ends (applyAction exec (g.global "HERE") (.message .look)) k r h := by
  rw [look, ends_get_bind, (Plain.tell _).ends_seq]
  refine exists_congr fun k ↦ and_congr_right fun _ ↦ ends_bind_plain fun handled ↦ ?_
  exact .bind (Verbal.describeRoom _).plain fun _ ↦ .signal _

theorem ends_arrive {room : Value} : Ends (arrive room) g r h ↔
    if (g.store.property room (.text "DEATH") .none).truthy then
      Ends (die (g.store.property room (.text "DEATH") .none) : Play Value) g r h
    else (g.store.property room (.text "VICTORY") .none).truthy ∧
      Ends (win : Play Value) g r h := by
  rw [arrive, ends_get_bind]
  dsimp only
  split
  · rw [die_bind, ends_die, ends_die]
  · rw [ends_get_bind]
    split
    · next hwin => rw [and_iff_right hwin, ends_win, ends_win]
    · next hwin => exact iff_of_false (Plain.pure _).not_ends fun hp ↦ hwin hp.1

theorem ends_anyTaken_cons {p : Play Value} {ps : List (Play Value)} :
    Ends (anyTaken (p :: ps)) g r h ↔
    Ends p g r h ∨ ∃ v k, p g = .ok v k ∧ v.truthy = false ∧ Ends (anyTaken ps) k r h := by
  rw [anyTaken, ends_bind]
  simp only [(Plain.pure _).ends_ite, Bool.not_eq_true]

theorem ends_stage {tag direct indirect : Value} {stage : Stage} :
    Ends (stage.play exec tag direct indirect) g r h ↔
      ∃ d, stage.delivery? tag direct indirect g = .ok (some d) ∧ Ends (d.run exec) g r h := by
  rw [Ends, Stage.play_eq, Stage.outcome]
  cases stage.delivery? tag direct indirect g with
  | error f => simp
  | ok d =>
    cases d with
    | none => cases stage <;> simp [Stage.unanswered]
    | some d => simp [Ends]

theorem ends_perform {verb direct indirect : Value} :
    Ends (perform exec verb direct indirect) g r h ↔
    verb.hashable ∧
      (Ends (anyTaken (Stage.all.map (Stage.play exec (g.verbTag verb) direct indirect)))
          (g.asked (g.verbTag verb) direct indirect) r h ∨
        ∃ handled k, anyTaken (Stage.all.map (Stage.play exec (g.verbTag verb) direct indirect))
            (g.asked (g.verbTag verb) direct indirect) = .ok handled k ∧
          Ends (applyAction exec (k.global "HERE") (.message .after)) k r h) := by
  by_cases hv : verb.hashable
  · have hend (handled : Bool) (k : Game) : Ends (hearsEnd exec handled) k r h ↔
        Ends (applyAction exec (k.global "HERE") (.message .after)) k r h := by
      rw [hearsEnd, ends_get_bind, ends_bind_plain fun _ ↦ .pure _, ends_discard]
    rw [and_iff_right hv, Ends, perform_eq exec hv, ← Ends, ends_bind]
    simp only [hend]
  · rw [Ends, perform, verbTag, bind_assoc, ← Ends, ends_demand_bind]
    exact iff_of_false (fun hp ↦ hv hp.1) fun hp ↦ hv hp.1

variable {resolve : String → Play (Option Command)} {source : Source}

theorem ends_turn {line : String} : Ends (turn exec resolve line) g r h ↔
    Ends (resolve line) g r h ∨ ∃ c k, resolve line g = .ok (some c) k ∧
      Ends (perform exec c.verb c.direct c.indirect) k r h := by
  rw [turn]
  refine (ends_tryCatch ?_ ?_ ?_).trans ?_
  · exact fun _ ↦ .fail _
  · exact fun s ↦ .bind (.noteStray s) fun _ ↦ .pure _
  · exact fun _ ↦ rfl
  rw [ends_bind]
  refine or_congr_right ⟨?_, ?_⟩
  · rintro ⟨c, k, hc, hends⟩
    cases c with
    | none => exact absurd hends (Plain.bind (.tell _) fun _ ↦ .pure _).not_ends
    | some c => exact ⟨c, k, hc, ends_discard.1 ((ends_bind_plain fun _ ↦ .pure _).1 hends)⟩
  · rintro ⟨c, k, hc, hends⟩
    exact ⟨some c, k, hc, (ends_bind_plain fun _ ↦ .pure _).2 (ends_discard.2 hends)⟩

theorem ends_pass {line : Value} : Ends (pass exec resolve source line) g r h ↔
    ∃ s k, line.string? = some s ∧ (Text.trim s).isEmpty = false ∧
      showRead source (some line) g = .ok () k ∧
      Ends (turn exec resolve (Text.trim s)) k r h := by
  rw [pass, (Plain.showRead _ _).ends_seq]
  cases line.string? with
  | none => simp [(Plain.fail _).not_ends]
  | some s =>
    have hcount (counts : Bool) : Plain (if counts then countMove else Pure.pure ()) :=
      .ite .countMove (.pure ())
    simp only [(Plain.pure _).ends_ite, ends_bind_plain hcount, Bool.not_eq_true]
    constructor
    · rintro ⟨k, hread, hblank, hends⟩
      exact ⟨s, k, rfl, hblank, hread, hends⟩
    · rintro ⟨_, k, ⟨⟩, hblank, hread, hends⟩
      exact ⟨k, hread, hblank, hends⟩

theorem ends_turns_cons {line : Value} {rest : List Value} :
    Ends (turns exec resolve source (line :: rest)) g r h ↔ line.isNone = false ∧
      atLimit g = .ok false g ∧
      (Ends (pass exec resolve source line) g r h ∨
        ∃ k, pass exec resolve source line g = .ok () k ∧
          Ends (turns exec resolve source rest) k r h) := by
  cases hline : line.isNone with
  | true =>
    have hplain : Plain (turns exec resolve source (line :: rest)) := by
      refine .bind .atLimit fun _ ↦ .ite (.pure _) (.bind (.showRead _ _) fun _ ↦ ?_)
      rw [hline]
      exact .pure _
    exact iff_of_false hplain.not_ends (by simp)
  | false =>
    have hseq :
        Ends (pass exec resolve source line >>= fun _ ↦ turns exec resolve source rest) g r h ↔
        Ends (pass exec resolve source line) g r h ∨
          ∃ k, pass exec resolve source line g = .ok () k ∧
            Ends (turns exec resolve source rest) k r h :=
      ends_seq
    rw [turns_cons _ _ _ hline, Plain.atLimit.ends_bind, and_iff_right rfl]
    constructor
    · rintro ⟨limit, k, hlimit, hends⟩
      obtain rfl := of_atLimit hlimit
      obtain ⟨hlim, hends⟩ := (Plain.pure _).ends_ite.1 hends
      obtain rfl := Bool.eq_false_iff.2 hlim
      exact ⟨hlimit, hseq.1 hends⟩
    · rintro ⟨hlimit, hends⟩
      exact ⟨false, g, hlimit, hseq.2 hends⟩

theorem Plain.turns_nil (exec : Exec) (resolve : String → Play (Option Command)) (source : Source) :
    Plain (turns exec resolve source []) :=
  .bind .atLimit fun _ ↦ .ite (.pure _) (.bind (.showRead _ _) fun _ ↦ .pure _)

theorem ends_enter {start : Value} :
    Ends (enter exec start) g r h ↔ start.isNone = false ∧ Ends (goTo exec start) g r h := by
  rw [enter, (Plain.pure _).ends_ite, ends_discard, Bool.not_eq_true]

/-- The end of the game is what a run returns. -/
theorem not_ends_run {lines : List Value} {start : Value} :
    ¬ Ends (run exec resolve source lines start) g r h := by
  rw [Ends, run_eq]
  cases session exec resolve source lines start g with
  | ok reason k => simp [concluded]
  | error e k => cases e <;> simp [concluded]

theorem ends_evalItems_cons {args : List Value} {last : Value} {c : Code} {cs : List Code} :
    Ends (evalItems exec args last (c :: cs)) g r h ↔
      Ends (eval exec (called args c).1 (called args c).2) g r h ∨
        ∃ v k, eval exec (called args c).1 (called args c).2 g = .ok v k ∧
          Ends (evalItems exec args v cs) k r h := by
  rw [evalItems_cons, ends_bind]

theorem ends_evalClause_cons {args : List Value} {c : Code} {cs : List Code} :
    Ends (evalClause exec args (c :: cs)) g r h ↔
      Ends (eval exec (called args c).1 (called args c).2) g r h ∨
        ∃ v k, eval exec (called args c).1 (called args c).2 g = .ok v k ∧ v.truthy ∧
          Ends (evalItems exec args v cs) k r h := by
  rw [evalClause_cons, ends_bind]
  refine or_congr_right (exists_congr fun v ↦ exists_congr fun k ↦ and_congr_right fun _ ↦ ?_)
  cases v.truthy with
  | true => exact (ends_bind_plain fun _ ↦ .pure _).trans (and_iff_right rfl).symm
  | false => exact iff_of_false (Plain.pure _).not_ends (by simp)

end Play

end Fable
