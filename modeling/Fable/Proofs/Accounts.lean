import Fable.Proofs.Finales
import Fable.Proofs.Load
import Fable.Proofs.Whereabouts

namespace Fable

theorem Store.atLeast_of_int? (s : Store) {a b : Value} {m n : ℤ} (ha : a.int? = some m)
    (hb : b.int? = some n) : s.atLeast a b = .ok (decide (n ≤ m)) := by
  rw [atLeast, s.order_of_int? ha hb, Except.map]
  rcases lt_trichotomy m n with h | h | h
  · rw [compare_lt_iff_lt.2 h, decide_eq_false (not_le.2 h)]
    rfl
  · rw [compare_eq_iff_eq.2 h, decide_eq_true h.ge]
    rfl
  · rw [compare_gt_iff_gt.2 h, decide_eq_true h.le]
    rfl

namespace Game

theorem int?_globalOr (g : Game) {name : String} {default : Value} {n : ℤ}
    (h : (g.global name).int? = some n) : (g.globalOr name default).int? = some n := by
  rw [global] at h
  rw [globalOr]
  cases hv : g.globals.find? (.text name) with
  | none => simp [hv, Value.int?] at h
  | some v => simpa [hv] using h

/-- Everything that the account of moves depends on is as before. -/
structure Kept (g h : Game) : Prop where
  moves : h.globalOr "MOVES" (.int 0) = g.globalOr "MOVES" (.int 0)
  config : h.config = g.config
  routines : h.routines = g.routines
  actionless : g.store.Actionless → h.store.Actionless

structure Accounts (g : Game) (config : Config) (moves : ℤ) : Prop where
  config : g.config = config
  verbs : g.OnlyVerbs
  actionless : g.store.Actionless
  moves : (g.globalOr "MOVES" (.int 0)).int? = some moves

variable {g h k : Game} {c : Config} {m : ℤ}

theorem Accounts.counted (hg : g.Accounts c m) :
    (g.assign "MOVES" (.int (m + 1))).Accounts c (m + 1) where
  config := hg.config
  verbs := hg.verbs
  actionless := hg.actionless
  moves := by rw [globalOr_assign, if_pos rfl]; rfl

namespace Kept

theorem refl (g : Game) : g.Kept g := ⟨rfl, rfl, rfl, id⟩

theorem trans (hg : g.Kept h) (hh : h.Kept k) : g.Kept k where
  moves := hh.moves.trans hg.moves
  config := hh.config.trans hg.config
  routines := hh.routines.trans hg.routines
  actionless ha := hh.actionless (hg.actionless ha)

instance : IsTrans Game Kept := ⟨fun _ _ _ ↦ trans⟩

theorem accounts (hg : g.Kept h) (ha : g.Accounts c m) : h.Accounts c m where
  config := hg.config.trans ha.config
  verbs name r hr := ha.verbs name r (hg.routines ▸ hr)
  actionless := hg.actionless ha.actionless
  moves := hg.moves ▸ ha.moves

theorem of_assign {name : String} (hname : name ≠ "MOVES") (v : Value) :
    g.Kept (g.assign name v) where
  moves := (globalOr_assign g name v "MOVES" _).trans (if_neg hname)
  config := rfl
  routines := rfl
  actionless := id

end Kept

theorem Told.kept (hg : g.Told h) : g.Kept h where
  moves := by rw [globalOr, globalOr, hg.globals]
  config := hg.config
  routines := hg.routines
  actionless ha := hg.store.symm ▸ ha

theorem Step.moves (hs : Step g h) : h.globalOr "MOVES" (.int 0) = g.globalOr "MOVES" (.int 0) := by
  cases hs with
  | tells ht => exact ht.kept.moves
  | asks tag direct indirect => exact globalOr_asked _ _ _ _ (by decide) (by decide) (by decide) _
  | takesFirst | walks | dies | wins => exact (Kept.of_assign (by decide) _).moves
  | takes | drops | opens | closes | describes => rfl

theorem Step.config (hs : Step g h) : h.config = g.config := by
  cases hs with
  | tells ht => exact ht.config
  | _ => rfl

theorem Steps.kept (hs : Steps g h) : g.Kept h := by
  induction hs with
  | refl => exact .refl g
  | tail _ hstep ih => exact ih.trans ⟨hstep.moves, hstep.config, hstep.routines, hstep.actionless⟩

end Game

theorem Scene.ne_limit_of_ends {s : Scene} {r : Reason} {h : Game} (hs : s.Ends r h) :
    r ≠ .limit := by
  obtain ⟨f, k, -, hf⟩ := exists_reaches hs
  rw [f.reason_of_ends hf]
  cases f <;> nofun

namespace Play

open Runs Game

variable {g h k : Game} {r : Reason} {c : Config} {m : ℤ}

theorem kept_goTo (ha : g.store.Actionless) (room : Value) : g.Kept (after (goTo exec room) g) := by
  -- The first room of a session need not be a room that the verbs lead to, so that it is no step of
  -- theirs.
  rcases goTo_cases exec ha room with htold | ⟨s, hs, hgo⟩
  · exact htold.kept
  · rw [hgo]
    exact ⟨(Kept.of_assign (by decide) room).moves, rfl, rfl, fun _ ↦ ha.of_move hs⟩

theorem kept_enter (ha : g.store.Actionless) (start : Value) :
    g.Kept (after (enter exec start) g) := by
  unfold enter
  split
  · exact .refl g
  · rw [after_discard]
    exact kept_goTo ha start

variable {resolve : String → Play (Option Command)} (hresolve : ∀ line, Quiet (resolve line))

include hresolve in
theorem kept_turn (hg : g.Accounts c m) (line : String) :
    g.Kept (after (turn exec resolve line) g) :=
  (turn_steps (hresolve line) hg.verbs hg.actionless).kept

section

variable (resolve)

/-- The line is resolved to a command that does not end the game, or left by a signal in that. -/
def isAnswered (line : String) (g : Game) : Bool :=
  match resolve line g with
  | .ok (some c) k => (ended? (perform exec c.verb c.direct c.indirect) k).isNone
  | .error (.signal _) _ => true
  | _ => false

variable (source : Source)

def isMove (line : String) (g : Game) : Bool :=
  !(Text.trim line).isEmpty &&
    isAnswered resolve (Text.trim line) (after (showRead source (some (.text line))) g)

/-- The lines that are read, each with the game in which it is: none at the limit, and none after a
line that ends the game. -/
def readings : List String → Game → List (String × Game)
  | [], _ => []
  | line :: lines, g =>
    match atLimit g, pass exec resolve source (.text line) g with
    | .ok false _, .ok _ k => (line, g) :: readings lines k
    | .ok false _, .error .. => [(line, g)]
    | _, _ => []

def movesMade (lines : List String) (g : Game) : Nat :=
  (readings resolve source lines g).countP fun (line, k) ↦ isMove resolve source line k

end

variable {source : Source} {line : String} {lines : List String}

theorem isAnswered_of_turn_ok {b : Bool} (hturn : turn exec resolve line g = .ok b k) :
    isAnswered resolve line g = b := by
  rw [isAnswered]
  rw [turn] at hturn
  cases hr : resolve line g with
  | ok c u =>
    cases c with
    | none =>
      rw [tryCatch_of_ok ((bind_of_ok hr _).trans (bind_of_ok (tell_of_render rfl) _))] at hturn
      cases hturn
      rfl
    | some c =>
      cases hp : perform exec c.verb c.direct c.indirect u with
      | ok handled v =>
        rw [tryCatch_of_ok ((bind_of_ok hr _).trans (bind_of_ok (discard_of_ok hp) _))] at hturn
        cases hturn
        simp [ended?, hp]
      | error e v =>
        rw [tryCatch_of_error ((bind_of_ok hr _).trans (bind_of_error (discard_of_error hp) _))]
          at hturn
        cases e with
        | signal s =>
          cases hturn
          simp [ended?, hp]
        | fault f => cases hturn
        | ended q => cases hturn
  | error e u =>
    rw [tryCatch_of_error (bind_of_error hr _)] at hturn
    cases e with
    | signal s =>
      cases hturn
      rfl
    | fault f => cases hturn
    | ended q => cases hturn

theorem isAnswered_of_turn_ends (hturn : (turn exec resolve line).Ends g r k) :
    isAnswered resolve line g = false := by
  obtain hs | ⟨c, u, hc, hs⟩ := ends_turn.1 hturn
  · rw [Ends] at hs
    rw [isAnswered, hs]
  · rw [Ends] at hs
    rw [isAnswered, hc]
    simp only [ended?, hs, Option.isNone_some]

theorem countMove_of_int? (hg : (g.globalOr "MOVES" (.int 0)).int? = some m) :
    countMove g = .ok () (g.assign "MOVES" (.int (m + 1))) := by
  rw [countMove, Runs.get_bind, sum, Value.add_of_int? hg rfl]
  rfl

theorem atLimit_of_int? {limit : ℤ} (hlimit : g.config.maxMoves.int? = some limit)
    (hg : (g.globalOr "MOVES" (.int 0)).int? = some m) :
    atLimit g = .ok (decide (limit ≤ m)) g := by
  have hsome : g.config.maxMoves.isNone = false := by
    cases hv : g.config.maxMoves with
    | none => simp [hv, Value.int?] at hlimit
    | _ => rfl
  rw [atLimit, Runs.get_bind]
  simp only [hsome]
  rw [if_neg Bool.false_ne_true, Runs.get_bind, Runs.get_bind, g.store.atLeast_of_int? hg hlimit]
  rfl

include hresolve in
theorem accounts_of_pass_ok (hg : g.Accounts c m)
    (hpass : pass exec resolve source (.text line) g = .ok () k) :
    k.Accounts c (m + (isMove resolve source line g).toNat) := by
  obtain ⟨u, hread, hrest⟩ := of_pass_ok hpass
  have hu : u.Accounts c m := (Quiet.told_of_ok (.showRead _) hread).kept.accounts hg
  rw [isMove, after_of_ok hread]
  rcases hrest with ⟨hblank, rfl⟩ | ⟨hblank, answered, v, hturn, hrest⟩
  · simpa [hblank] using hu
  · have hv := (kept_turn hresolve hu (Text.trim line)).accounts hu
    rw [after_of_ok hturn] at hv
    rw [hblank, isAnswered_of_turn_ok hturn]
    cases answered with
    | false =>
      cases hrest
      simpa using hv
    | true =>
      have hcount : countMove v = .ok () k := hrest
      rw [countMove_of_int? hv.moves] at hcount
      cases hcount
      exact hv.counted

include hresolve in
theorem accounts_of_pass_ends (hg : g.Accounts c m)
    (hpass : (pass exec resolve source (.text line)).Ends g r k) :
    k.Accounts c (m + (isMove resolve source line g).toNat) := by
  obtain ⟨_, u, ⟨⟩, hblank, hread, hturn⟩ := ends_pass.1 hpass
  have hu : u.Accounts c m := (Quiet.told_of_ok (.showRead _) hread).kept.accounts hg
  have hk := (kept_turn hresolve hu (Text.trim line)).accounts hu
  rw [after_of_error hturn] at hk
  rw [isMove, after_of_ok hread, isAnswered_of_turn_ends hturn, Bool.and_false]
  simpa using hk

theorem movesMade_of_limit (hlimit : atLimit g = .ok true g) :
    movesMade resolve source lines g = 0 := by
  cases lines with
  | nil => rfl
  | cons line lines => simp [movesMade, readings, hlimit]

theorem movesMade_of_pass_ok (hlimit : atLimit g = .ok false g)
    (hpass : pass exec resolve source (.text line) g = .ok () k) :
    movesMade resolve source (line :: lines) g =
      (isMove resolve source line g).toNat + movesMade resolve source lines k := by
  simp only [movesMade, readings, hlimit, hpass, List.countP_cons]
  cases isMove resolve source line g <;> simp [Nat.add_comm]

theorem movesMade_of_pass_error {e : Exit} (hlimit : atLimit g = .ok false g)
    (hpass : pass exec resolve source (.text line) g = .error e k) :
    movesMade resolve source (line :: lines) g = (isMove resolve source line g).toNat := by
  simp only [movesMade, readings, hlimit, hpass, List.countP_cons, List.countP_nil]
  cases isMove resolve source line g <;> rfl

include hresolve in
theorem accounts_of_turns_ok (hg : g.Accounts c m)
    (hturns : turns exec resolve source (lines.map .text) g = .ok r k) :
    k.Accounts c (m + movesMade resolve source lines g) := by
  induction lines generalizing g m with
  | nil =>
    obtain ⟨limit, u, hlimit, hrest⟩ := of_bind_ok hturns
    obtain rfl := of_atLimit hlimit
    have hk : u.Told k := by
      split at hrest
      · cases hrest
        exact .refl _
      · obtain ⟨_, v, hread, hrest⟩ := of_bind_ok hrest
        cases hrest
        exact Quiet.told_of_ok (.showRead _) hread
    simpa [movesMade, readings] using hk.kept.accounts hg
  | cons line lines ih =>
    rcases of_turns_cons_ok rfl hturns with ⟨hlimit, -, rfl⟩ | ⟨hlimit, v, hpass, hrest⟩
    · simpa [movesMade_of_limit hlimit] using hg
    · rw [movesMade_of_pass_ok hlimit hpass, Int.natCast_add, ← Int.add_assoc]
      exact ih (accounts_of_pass_ok hresolve hg hpass) hrest

include hresolve in
theorem accounts_of_turns_ends (hg : g.Accounts c m)
    (hturns : (turns exec resolve source (lines.map .text)).Ends g r k) :
    k.Accounts c (m + movesMade resolve source lines g) := by
  induction lines generalizing g m with
  | nil => exact absurd hturns (Plain.turns_nil exec resolve source).not_ends
  | cons line lines ih =>
    obtain ⟨-, hlimit, hpass | ⟨v, hpass, hrest⟩⟩ := ends_turns_cons.1 hturns
    · rw [movesMade_of_pass_error hlimit hpass]
      exact accounts_of_pass_ends hresolve hg hpass
    · rw [movesMade_of_pass_ok hlimit hpass, Int.natCast_add, ← Int.add_assoc]
      exact ih (accounts_of_pass_ok hresolve hg hpass) hrest

include hresolve in
/-- As long as the limit is not reached, a line adds one move at most. -/
theorem add_movesMade_le {limit : ℤ} (hlimit : c.maxMoves.int? = some limit) (hg : g.Accounts c m) :
    m + movesMade resolve source lines g ≤ max m limit := by
  induction lines generalizing g m with
  | nil => simp [movesMade, readings]
  | cons line lines ih =>
    have hat := atLimit_of_int? (hg.config.symm ▸ hlimit) hg.moves
    by_cases hm : limit ≤ m
    · rw [decide_eq_true hm] at hat
      simp [movesMade_of_limit hat]
    · rw [decide_eq_false hm] at hat
      have hone := (isMove resolve source line g).toNat_le
      cases hpass : pass exec resolve source (.text line) g with
      | ok u k =>
        have hrest := ih (accounts_of_pass_ok hresolve hg hpass)
        rw [movesMade_of_pass_ok hat hpass]
        omega
      | error e k =>
        rw [movesMade_of_pass_error hat hpass]
        omega

/-- Unless the game has ended, a session says that it stops at the limit exactly if it does. -/
theorem atLimit_of_turns_ok {exec : Exec} {echo : Bool}
    (hturns : turns exec resolve (.script echo) (lines.map .text) g = .ok r k) :
    atLimit k = .ok (decide (r = .limit)) k := by
  induction lines generalizing g with
  | nil =>
    obtain ⟨limit, u, hlimit, hrest⟩ := of_bind_ok hturns
    obtain rfl := of_atLimit hlimit
    cases limit with
    | true =>
      cases hrest
      exact hlimit
    | false =>
      cases echo <;> (cases hrest; exact hlimit)
  | cons line lines ih =>
    rcases of_turns_cons_ok rfl hturns with ⟨hlimit, rfl, rfl⟩ | ⟨-, v, -, hrest⟩
    · exact hlimit
    · exact ih hrest

theorem not_ends_goTo (ha : g.store.Actionless) (room : Value) : ¬ (goTo exec room).Ends g r h := by
  intro hends
  obtain ⟨k, hmove, hends⟩ := ends_goTo.1 hends
  obtain ⟨q, -, hq, hsome, -⟩ := ends_applyAction.1 hends
  have hk : k.store.Actionless := by
    cases hs : Store.move (g.global "WINNER") room g.store with
    | ok u s =>
      rw [move_of_ok hs] at hmove
      cases hmove
      exact ha.of_move hs
    | error f s => exact absurd hmove (ne_true_of_error hs)
  rw [hk.isNone hq] at hsome
  cases hsome

theorem ne_limit_of_turns_ends (hlimit : ∀ line g h, ¬ (resolve line).Ends g .limit h)
    {lines : List Value} (hturns : (turns exec resolve source lines).Ends g r k) : r ≠ .limit := by
  induction lines generalizing g with
  | nil => exact absurd hturns (Plain.turns_nil exec resolve source).not_ends
  | cons line lines ih =>
    obtain ⟨-, -, hpass | ⟨v, -, hrest⟩⟩ := ends_turns_cons.1 hturns
    · obtain ⟨s, u, -, -, -, hturn⟩ := ends_pass.1 hpass
      obtain hends | ⟨c, v, -, hends⟩ := ends_turn.1 hturn
      · rintro rfl
        exact hlimit _ _ _ hends
      · exact Scene.ne_limit_of_ends
          (s := ⟨callDepth, .command c.verb c.direct c.indirect, v⟩) hends
    · exact ih hrest

/-- In a game of standard verbs, whose objects have no actions, a session that does not fail adds to
the moves the number of lines that are read and are moves, as long as its resolver only tells. If
there is a limit, it is not passed, and it is the reason for the end exactly if it is reached and
the game was not ended. Resolvers that are authored do not end the game for that reason. -/
theorem moves_accounted :
    (∀ n walkVerb resolver line g h,
      ¬ (evalResolver (execWithin n) walkVerb resolver line).Ends g .limit h) ∧
    ∀ (resolve : String → Play (Option Command)), (∀ line, Quiet (resolve line)) →
      ∀ (echo : Bool) (lines : List String) (start : Value) (g : Game) (m : ℤ),
        g.OnlyVerbs → g.store.Actionless → (g.global "MOVES").int? = some m →
        ∀ reason score moves diagnostics stamp final,
          run exec resolve (.script echo) (lines.map .text) start g =
            .ok (.outcome reason score moves diagnostics stamp) final →
          let made := movesMade resolve (.script echo) lines (after (enter exec start) g)
          moves.int? = some (m + made) ∧
            ∀ limit : ℤ, g.config.maxMoves.int? = some limit →
              m + made ≤ max m limit ∧
                ((∀ line g h, ¬ (resolve line).Ends g .limit h) →
                  (reason = .limit ↔
                    (∃ r k, session exec resolve (.script echo) (lines.map .text) start g =
                      .ok r k) ∧
                      limit ≤ m + made)) := by
  refine ⟨?_, ?_⟩
  · intro n walkVerb resolver line g h hends
    exact Scene.ne_limit_of_ends (s := ⟨n, .resolution ⟨.terminal, walkVerb, resolver⟩ line, g⟩)
      hends rfl
  · intro resolve hresolve echo lines start g m hverbs ha hm reason score moves
      diagnostics stamp final hrun
      made
    have hg : g.Accounts g.config m := ⟨rfl, hverbs, ha, g.int?_globalOr hm⟩
    have hu : (after (enter exec start) g).Accounts g.config m := (kept_enter ha start).accounts hg
    have hmade (limit : ℤ) (hlimit : g.config.maxMoves.int? = some limit) :
        m + made ≤ max m limit :=
      add_movesMade_le hresolve hlimit hu
    obtain ⟨r, k, hresult, rfl, ⟨hs, -⟩ | hs⟩ := session_of_run_ok hrun
    · cases hresult
      obtain ⟨_, u, henter, hturns⟩ := of_bind_ok hs
      obtain rfl := after_of_ok henter
      have hk : k.Accounts g.config (m + made) := accounts_of_turns_ok hresolve hu hturns
      refine ⟨hk.moves, fun limit hlimit ↦ ⟨hmade limit hlimit, fun _ ↦ ?_⟩⟩
      have hat :=
        (atLimit_of_turns_ok hturns).symm.trans (atLimit_of_int? (hk.config.symm ▸ hlimit) hk.moves)
      rw [and_iff_right ⟨reason, k, hs⟩]
      simpa using hat
    · cases hresult
      obtain henter | ⟨u, henter, hturns⟩ := ends_seq.1 hs
      -- Nobody is told of the first room but the room itself, which has no action.
      · exact absurd (ends_enter.1 henter).2 (not_ends_goTo ha start)
      obtain rfl := after_of_ok henter
      have hk : k.Accounts g.config (m + made) := accounts_of_turns_ends hresolve hu hturns
      refine ⟨hk.moves, fun limit hlimit ↦ ⟨hmade limit hlimit, fun hreasons ↦ ?_⟩⟩
      exact iff_of_false (ne_limit_of_turns_ends hreasons hturns) (by simp [hs])

def pacedHall : Game := { hall.assign "MOVES" (.int 0) with config := { maxMoves := .int 2 } }

def stroll : List String := ["walk north", " ", "xyzzy", "look", "look"]

theorem two_moves_in_hall :
    (∀ line, Quiet (Play.resolve (.text "WALK") line)) ∧ pacedHall.OnlyVerbs ∧
    pacedHall.store.Actionless ∧
      (pacedHall.global "MOVES").int? = some 0 ∧
      (readings (Play.resolve (.text "WALK")) (.script false) stroll pacedHall).length = 4 ∧
      movesMade (Play.resolve (.text "WALK")) (.script false) stroll pacedHall = 2 ∧
      ∃ k : Game, run exec (Play.resolve (.text "WALK")) (.script false)
        (stroll.map .text) .none pacedHall =
          .ok (k.result .limit) (k.noted (.ended .limit)) ∧
        (k.globalOr "MOVES" (.int 0)).int? = some 2 := by
  have hquiet : ∀ line, Quiet (Play.resolve (.text "WALK") line) :=
    fun line ↦ .get_bind fun _ ↦ .lift _
  have hhall : hall.OnlyVerbs :=
    Play.onlyVerbs_installed fun name r hr ↦ by simp [bareHall, Table.find?] at hr
  have hroutines : pacedHall.routines = hall.routines := by rw [pacedHall, assign]
  have hverbs : pacedHall.OnlyVerbs := fun name r hr ↦ hhall name r (hroutines ▸ hr)
  have hactions : pacedHall.store.Actionless := by decide +kernel
  have hmoves : (pacedHall.global "MOVES").int? = some 0 := by decide +kernel
  have hread :
      (readings (Play.resolve (.text "WALK")) (.script false) stroll pacedHall).length = 4 := by
    decide +kernel
  have hmade : movesMade (Play.resolve (.text "WALK")) (.script false) stroll pacedHall = 2 := by
    decide +kernel
  have hs :
      result? (session exec (Play.resolve (.text "WALK")) (.script false) (stroll.map .text) .none)
      pacedHall = some .limit := by decide +kernel
  refine ⟨hquiet, hverbs, hactions, hmoves, hread, hmade, ?_⟩
  obtain ⟨k, hk⟩ :
      ∃ k, session exec (Play.resolve (.text "WALK")) (.script false) (stroll.map .text) .none
      pacedHall = .ok .limit k := ⟨_, ok_of_result? hs⟩
  have hrun :
      run exec (Play.resolve (.text "WALK")) (.script false) (stroll.map .text) .none pacedHall =
      .ok (k.result .limit) (k.noted (.ended .limit)) := by
    rw [run_eq, hk]
    rfl
  have hcount :=
    (moves_accounted.2 _ hquiet false stroll .none pacedHall 0 hverbs hactions hmoves .limit
    _ _ _ _ _ hrun).1
  have henter : after (enter exec .none) pacedHall = pacedHall := rfl
  rw [henter, hmade] at hcount
  exact ⟨k, hrun, hcount⟩

end Play

end Fable
