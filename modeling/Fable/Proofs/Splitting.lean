import Fable.Proofs.Plain
import Fable.Proofs.Sessions

namespace Fable.Play

open Runs

variable {α β : Type}

namespace Deaf

theorem discard {p : Play α} (hp : Deaf p) : Deaf (discard p) :=
  .bind hp fun _ ↦ (Plain.pure ()).deaf

theorem boundary {p : Play Value} (hp : Deaf p) : Deaf (Play.boundary p) := by
  refine .tryCatch hp fun e ↦ ?_
  cases e with
  | signal s => exact (Plain.pure _).deaf
  | fault f => exact .throw _
  | ended r => exact .throw _

theorem attempt {p : Play Value} (hp : Deaf p) : Deaf (Play.attempt p) := by
  refine .tryCatch hp fun e ↦ ?_
  cases e with
  | fault f => exact (Plain.pure _).deaf
  | signal s => exact .throw _
  | ended r => exact .throw _

theorem die (message : Value) : Deaf (Play.die message : Play α) := by
  refine .bind (Plain.write _).deaf fun _ ↦ .bind (Plain.write _).deaf fun _ ↦ ?_
  refine .get_bind (fun g ↦ .bind (Plain.lift _).deaf fun _ ↦ ?_) fun _ _ ↦ rfl
  refine .bind (Plain.write _).deaf fun _ ↦ .bind (Plain.setGlobal _ _).deaf fun _ ↦ ?_
  refine .bind (Plain.modifies fun _ l ↦ ⟨l, rfl⟩).deaf fun _ ↦ ?_
  exact .bind (Plain.note _).deaf fun _ ↦ .throw _

theorem win : Deaf (Play.win : Play α) := by
  refine .get_bind (fun g ↦ .bind (Plain.lift _).deaf fun _ ↦ ?_) fun _ _ ↦ rfl
  refine .bind (Plain.lift _).deaf fun _ ↦ .bind (Plain.write _).deaf fun _ ↦ ?_
  refine .bind (Plain.setGlobal _ _).deaf fun _ ↦ ?_
  refine .bind (Plain.modifies fun _ l ↦ ⟨l, rfl⟩).deaf fun _ ↦ ?_
  exact .get_bind (fun _ ↦ .bind (Plain.note _).deaf fun _ ↦ .throw _) fun _ _ ↦ rfl

theorem arrive (room : Value) : Deaf (Play.arrive room) := by
  have hwin : Deaf (do
      if ((← MonadState.get).store.property room (.text "VICTORY") .none).truthy
        then Play.win : Play Unit) :=
    .get_bind (fun _ ↦ .ite .win (Plain.pure ()).deaf) fun _ _ ↦ rfl
  exact .get_bind (fun g ↦ .ite (.bind (.die _) fun _ ↦ hwin) hwin) fun _ _ ↦ rfl

section

variable {exec : Exec} (hexec : ∀ r args, Deaf (exec r args))
include hexec

theorem call (name : Value) (args : List Value) : Deaf (Play.call exec name args) :=
  .bind (Plain.routine name).deaf fun _ ↦ .ite (Plain.pure _).deaf (.boundary (hexec _ _))

theorem applyAction (id message : Value) : Deaf (Play.applyAction exec id message) := by
  refine .bind (Plain.demand id).deaf fun _ ↦ .get_bind (fun g ↦ ?_) fun _ _ ↦ rfl
  split
  · exact (Plain.pure _).deaf
  · exact .ite (Plain.pure _).deaf (.ite (.call hexec _ _) (.boundary (hexec _ _)))

theorem goTo (room : Value) : Deaf (Play.goTo exec room) := by
  refine .get_bind (fun g ↦ .bind (Plain.move _ _).deaf fun moved ↦ ?_) fun _ _ ↦ rfl
  exact .ite (.bind (Plain.setGlobal _ _).deaf fun _ ↦ .applyAction hexec _ _) (Plain.pure _).deaf

theorem offerTo (id : Value) : Deaf (Play.offerTo exec id) :=
  .ite (Plain.pure _).deaf (.applyAction hexec _ _)

theorem offerVerb (tag : Value) : Deaf (Play.offerVerb exec tag) := by
  refine .bind (Plain.text _).deaf fun name ↦ .get_bind (fun g ↦ ?_) fun _ _ ↦ rfl
  exact .ite (.call hexec _ _) (Plain.bind (.tell _) fun _ ↦ .pure _).deaf

omit hexec in
theorem firstTaken {ps : List (Play Value)} {last : Play Value} (hps : ∀ p ∈ ps, Deaf p)
    (hlast : Deaf last) : Deaf (Play.firstTaken ps last) := by
  induction ps with
  | nil => exact hlast
  | cons p ps ih =>
    refine .bind (hps p (by simp)) fun v ↦
      .ite (Plain.pure _).deaf (ih fun q hq ↦ hps q (by simp [hq]))

theorem offer (tag direct indirect : Value) : Deaf (Play.offer exec tag direct indirect) := by
  refine .firstTaken (fun p hp ↦ ?_) (.offerVerb hexec tag)
  simp only [List.mem_cons, List.not_mem_nil, or_false] at hp
  rcases hp with rfl | rfl | rfl | rfl
  · refine .get_bind (fun g ↦ .get_bind (fun h ↦ .get_bind (fun k ↦ ?_) ?_) ?_) ?_
    · exact .ite (Plain.pure _).deaf (.applyAction hexec _ _)
    all_goals exact fun _ _ ↦ rfl
  · exact .get_bind (fun g ↦ .applyAction hexec _ _) fun _ _ ↦ rfl
  · exact .offerTo hexec indirect
  · exact .offerTo hexec direct

theorem perform (verb direct indirect : Value) : Deaf (Play.perform exec verb direct indirect) := by
  refine .bind (Plain.verbTag verb).deaf fun tag ↦ .bind (Plain.setGlobal _ _).deaf fun _ ↦ ?_
  refine .bind (Plain.setGlobal _ _).deaf fun _ ↦ .bind (Plain.setGlobal _ _).deaf fun _ ↦ ?_
  refine .bind (.offer hexec _ _ _) fun handled ↦ .get_bind (fun g ↦ ?_) fun _ _ ↦ rfl
  exact .bind (.discard (.applyAction hexec _ _)) fun _ ↦ (Plain.pure _).deaf

theorem look : Deaf (Play.look exec) := by
  refine .get_bind (fun g ↦ .bind (Plain.tell _).deaf fun _ ↦ ?_) fun _ _ ↦ rfl
  exact .bind (.applyAction hexec _ _) fun _ ↦
    .bind (Verbal.describeRoom _).plain.deaf fun _ ↦ .throw _

theorem walk : Deaf (Play.walk exec) := by
  rw [walk_eq]
  refine .bind Verbal.setOut.plain.deaf fun dest ↦ .bind (.goTo hexec _) fun handled ↦ ?_
  refine .get_bind (fun k ↦ .ite (Plain.signal_bind _ _).deaf ?_) fun _ _ ↦ rfl
  exact .bind (Verbal.describeRoom _).plain.deaf fun _ ↦ .bind (.arrive _) fun _ ↦ .throw _

theorem standardVerb (v : StandardVerb) : Deaf (Play.standardVerb exec v) := by
  cases v with
  | look => exact .look hexec
  | examine => exact Verbal.examine.plain.deaf
  | take => exact Verbal.take.plain.deaf
  | drop => exact Verbal.drop.plain.deaf
  | inventory => exact Verbal.inventory.plain.deaf
  | openUp => exact Verbal.openUp.plain.deaf
  | closeUp => exact Verbal.closeUp.plain.deaf
  | walk => exact .walk hexec
  | score => exact Verbal.showScore.plain.deaf
  | quit => exact .throw _

variable {resolve : String → Play (Option Command)} (hresolve : ∀ line, Deaf (resolve line))

include hresolve in
theorem turn (line : String) : Deaf (Play.turn exec resolve line) := by
  refine .tryCatch (.bind (hresolve line) fun c ↦ ?_) fun e ↦ ?_
  · split
    · exact (Plain.bind (.tell _) fun _ ↦ .pure _).deaf
    · exact .bind (.discard (.perform hexec _ _ _)) fun _ ↦ (Plain.pure _).deaf
  · cases e with
    | fault f => exact .throw _
    | signal s => exact (Plain.bind (.noteStray s) fun _ ↦ .pure _).deaf
    | ended r => exact .throw _

include hresolve in
theorem turns (source : Source) (lines : List Value) :
    Deaf (Play.turns exec resolve source lines) := by
  induction lines with
  | nil =>
    refine .bind Plain.atLimit.deaf fun _ ↦ .ite (Plain.pure _).deaf ?_
    exact (Plain.bind (.showRead _ _) fun _ ↦ .pure _).deaf
  | cons line rest ih =>
    refine .bind Plain.atLimit.deaf fun _ ↦ .ite (Plain.pure _).deaf ?_
    refine .bind (Plain.showRead _ _).deaf fun _ ↦ .ite (Plain.pure _).deaf ?_
    split
    · exact (Plain.fail _).deaf
    · refine .ite ih (.bind (.turn hexec hresolve _) fun counts ↦ ?_)
      exact .ite (.bind Plain.countMove.deaf fun _ ↦ ih) ih

include hresolve in
theorem run (source : Source) (lines : List Value) (start : Value) :
    Deaf (Play.run exec resolve source lines start) := by
  refine .bind (.tryCatch ?_ fun e ↦ ?_) fun reason ↦ .bind (Plain.note _).deaf fun _ ↦ ?_
  · have hturns := Deaf.turns hexec hresolve source lines
    exact .ite (.bind (.discard (.goTo hexec _)) fun _ ↦ hturns) hturns
  · cases e with
    | fault f => exact .throw _
    | signal s => exact .throw _
    | ended r => exact (Plain.pure _).deaf
  · exact .get_bind (fun g ↦ (Plain.pure _).deaf) fun _ _ ↦ rfl

theorem applyPlay (o : Op) (vs : List Value) : Deaf (Play.applyPlay exec o vs) := by
  cases hl : o.isLively with
  | false => exact (Plain.applyPlay exec hl vs).deaf
  | true =>
    unfold Play.applyPlay
    split
    any_goals contradiction
    · exact .boundary (hexec _ _)
    · exact .call hexec _ _
    · exact .applyAction hexec _ _
    · exact .bind (.perform hexec _ _ _) fun _ ↦ (Plain.pure _).deaf
    · exact .bind (.perform hexec _ _ _) fun _ ↦ (Plain.pure _).deaf
    · exact .bind (.perform hexec _ _ _) fun _ ↦ (Plain.pure _).deaf
    · exact .goTo hexec _
    · exact .die _
    · exact .win
    · exact .throw _
    · exact (Plain.fail _).deaf

theorem apply (args : List Value) (o : Op) (vs : List Value) :
    Deaf (Play.apply exec args o vs) := by
  cases hl : o.isLively with
  | false => exact (Plain.apply exec args hl vs).deaf
  | true =>
    rw [apply_of_isLively exec args hl]
    exact .applyPlay hexec o vs

end

variable {exec : Exec}

mutual

theorem eval (hexec : ∀ r args, Deaf (exec r args)) (args : List Value) (c : Code) :
    Deaf (Play.eval exec args c) := by
  match c with
  | .none | .bool _ | .int _ | .text _ | .fatal | .directive _ | .message _ =>
    exact (Plain.pure _).deaf
  | .float _ => exact (Plain.fresh _).deaf
  | .list items => exact .bind (evalAll hexec args items) fun _ ↦ (Plain.pure _).deaf
  | .dict entries => exact .bind (evalEntries hexec args entries) fun _ ↦ (Plain.pure _).deaf
  | .routine _ _ => exact (Plain.newRoutine _ _).deaf
  | .op o items => exact .bind (evalAll hexec args items) fun _ ↦ .apply hexec _ _ _
  | .block items => exact evalBlock hexec args _ items
  | .branch test yes no =>
    exact .bind (eval hexec args test) fun _ ↦ .ite (eval hexec args yes) (eval hexec args no)
  | .cond clauses => exact evalClauses hexec args clauses
  | .attempt body => exact .attempt (eval hexec args body)
  | .play lines start echo walkVerb resolver =>
    refine .bind (evalAll hexec args lines) fun _ ↦ .bind (eval hexec args start) fun _ ↦ ?_
    refine .bind (eval hexec args walkVerb) fun w ↦
      .bind (.run hexec (fun line ↦ ?_) _ _ _) fun _ ↦ ?_
    · exact evalResolver hexec w resolver line
    · exact (Plain.fresh _).deaf

theorem evalAll (hexec : ∀ r args, Deaf (exec r args)) (args : List Value) (cs : List Code) :
    Deaf (Play.evalAll exec args cs) := by
  match cs with
  | [] => exact (Plain.pure _).deaf
  | c :: cs =>
    exact .bind (eval hexec args c) fun _ ↦ .bind (evalAll hexec args cs) fun _ ↦
      (Plain.pure _).deaf

theorem evalEntries (hexec : ∀ r args, Deaf (exec r args)) (args : List Value)
    (es : List (String × Code)) :
    Deaf (Play.evalEntries exec args es) := by
  match es with
  | [] => exact (Plain.pure _).deaf
  | (k, c) :: es =>
    exact .bind (eval hexec args c) fun _ ↦ .bind (evalEntries hexec args es) fun _ ↦
      (Plain.pure _).deaf

theorem evalBlock (hexec : ∀ r args, Deaf (exec r args)) (args : List Value)
    (last : Value) (cs : List Code) :
    Deaf (Play.evalBlock exec args last cs) := by
  match cs with
  | [] => exact (Plain.pure _).deaf
  | c :: cs => exact .bind (eval hexec args c) fun v ↦ evalBlock hexec args v cs

theorem evalItems (hexec : ∀ r args, Deaf (exec r args)) (args : List Value)
    (last : Value) (cs : List Code) :
    Deaf (Play.evalItems exec args last cs) := by
  match cs with
  | [] => exact (Plain.pure _).deaf
  | c :: cs =>
    rw [evalItems_cons]
    refine .bind ?_ fun v ↦ evalItems hexec args v cs
    cases c with
    | routine name body => exact eval hexec [] body
    | _ => exact eval hexec args _

theorem evalClause (hexec : ∀ r args, Deaf (exec r args)) (args : List Value) (cs : List Code) :
    Deaf (Play.evalClause exec args cs) := by
  match cs with
  | [] => exact (Plain.pure _).deaf
  | c :: cs =>
    rw [evalClause_cons]
    refine .bind ?_ fun v ↦ .ite (.bind (evalItems hexec args v cs) fun _ ↦ ?_) (Plain.pure _).deaf
    · cases c with
      | routine name body => exact eval hexec [] body
      | _ => exact eval hexec args _
    · exact (Plain.pure _).deaf

theorem evalClauses (hexec : ∀ r args, Deaf (exec r args)) (args : List Value)
    (clauses : List (List Code)) :
    Deaf (Play.evalClauses exec args clauses) := by
  match clauses with
  | [] => exact (Plain.pure _).deaf
  | clause :: rest =>
    refine .bind (evalClause hexec args clause) fun v ↦ ?_
    split
    · exact (Plain.pure _).deaf
    · exact evalClauses hexec args rest

theorem evalResolver (hexec : ∀ r args, Deaf (exec r args)) (walkVerb : Value)
    (resolver : Option Code) (line : String) :
    Deaf (Play.evalResolver exec walkVerb resolver line) := by
  match resolver with
  | none => exact (Plain.resolve walkVerb line).deaf
  | some c => exact .bind (eval hexec _ c) fun _ ↦ (Plain.lift _).deaf

end

theorem execWithin (n : Nat) (r : Value) (args : List Value) : Deaf (Play.execWithin n r args) := by
  induction n generalizing r args with
  | zero => exact (Plain.fail _).deaf
  | succ n ih =>
    cases r with
    | routine q =>
      obtain ⟨name, stamp, body⟩ := q
      cases body with
      | code c => exact .eval ih args c
      | verb v => exact .ite (.standardVerb ih v) (Plain.fail _).deaf
    | _ => exact (Plain.fail _).deaf

end Deaf

variable {exec : Exec} {resolve : String → Play (Option Command)} {source : Source} {g k : Game}

theorem turns_of_limit (h : atLimit g = .ok true g) (lines : List Value) :
    turns exec resolve source lines g = .ok .limit g := by
  cases lines with
  | nil => exact bind_of_ok h _
  | cons line rest => exact bind_of_ok h _

/-- A session that stops at the end of its lines, or at the limit, goes on with further lines where
it stopped. -/
theorem turns_append {echo : Bool} {first : List String} {reason : Reason}
    (h : turns exec resolve (.script echo) (first.map .text) g = .ok reason k)
    (second : List Value) :
    turns exec resolve (.script echo) (first.map .text ++ second) g =
      turns exec resolve (.script echo) second k := by
  induction first generalizing g with
  | nil =>
    obtain ⟨limit, m, hlimit, h⟩ := of_bind_ok h
    obtain rfl := of_atLimit hlimit
    cases limit with
    | true =>
      cases h
      rfl
    | false =>
      -- There is nothing to echo where no line is left.
      cases echo <;> (cases h; rfl)
  | cons line rest ih =>
    rw [List.map_cons, List.cons_append, turns_cons _ _ _ rfl]
    rcases of_turns_cons_ok rfl h with ⟨hlimit, rfl, rfl⟩ | ⟨hlimit, u, hpass, h⟩
    · rw [bind_of_ok hlimit]
      exact (turns_of_limit hlimit second).symm
    · rw [bind_of_ok hlimit]
      exact (bind_of_ok hpass _).trans (ih h)

theorem session_append {echo : Bool} {first : List String} {start : Value} {reason : Reason}
    (h : session exec resolve (.script echo) (first.map .text) start g = .ok reason k)
    (second : List String) :
    session exec resolve (.script echo) ((first ++ second).map .text) start g =
      session exec resolve (.script echo) (second.map .text) .none k := by
  obtain ⟨u, m, henter, hturns⟩ := of_bind_ok h
  rw [List.map_append, session, bind_of_ok henter, turns_append hturns]
  rfl

/-- Authored code cannot look at the log, whether it is the code of routines and handlers or that of
resolvers. So if a script is played by code that cannot, and its session stops without the end of
the game, then playing further lines in a second session has the same result and leaves the same
game, but for its log, as playing all lines in one. -/
theorem script_in_two_parts :
    (∀ n r args, Deaf (execWithin n r args)) ∧
      (∀ n walkVerb resolver line, Deaf (evalResolver (execWithin n) walkVerb resolver line)) ∧
      ∀ (exec : Exec) (resolve : String → Play (Option Command)),
        (∀ r args, Deaf (exec r args)) → (∀ line, Deaf (resolve line)) →
        ∀ (echo : Bool) (first second : List String) (start : Value) (g k : Game) (reason : Reason),
          session exec resolve (.script echo) (first.map .text) start g = .ok reason k →
          ∃ h l, run exec resolve (.script echo)
            (first.map .text) start g = .ok (k.result reason) h ∧
            run exec resolve (.script echo) (second.map .text) .none h =
              relogged l
                (run exec resolve (.script echo) ((first ++ second).map .text) start g) := by
  refine ⟨.execWithin, fun n ↦ .evalResolver (.execWithin n), ?_⟩
  intro exec resolve hexec hresolve echo first second start g k reason hfirst
  have hwhole : run exec resolve (.script echo) ((first ++ second).map .text) start g =
      run exec resolve (.script echo) (second.map .text) .none k := by
    rw [run_eq, run_eq, session_append hfirst second]
  obtain ⟨l, hl⟩ := Deaf.run hexec hresolve (.script echo) (second.map .text) .none k
    (k.log.push (.ended reason))
  refine ⟨k.noted (.ended reason), l, ?_, ?_⟩
  · rw [run_eq, hfirst]
    rfl
  · rw [hwhole, ← hl]
    rfl

def belfry : Game where
  config := { maxMoves := .int 2 }
  routines := [(.text "V-RING", .routine ⟨"ring", 0, .code (.op .tell [.text "Ding."])⟩)]

def ringing : String → Play (Option Command) :=
  evalResolver Play.exec (.text "WALK") (some (.list [.text "RING"]))

/-- The limit is reached in the second part, so that its last line is left unread. -/
theorem bell_rung_in_two_parts :
    (∀ r args, Deaf (Play.exec r args)) ∧ (∀ line, Deaf (ringing line)) ∧
      result? (session Play.exec ringing (.script true) (["pull", " "].map .text) .none) belfry =
        some .quit ∧
      ∃ (k h : Game) (l : Array Event),
        run Play.exec ringing (.script true) (["pull", " "].map .text) .none belfry =
          .ok (k.result .quit) h ∧
          run Play.exec ringing (.script true) (["pull", "pull"].map .text) .none h = relogged l
            (run Play.exec ringing (.script true) (["pull", " ", "pull", "pull"].map .text) .none
              belfry) := by
  have hfirst :
      result? (session Play.exec ringing (.script true) (["pull", " "].map .text) .none) belfry =
      some .quit := by decide +kernel
  have hexec : ∀ r args, Deaf (Play.exec r args) := .execWithin callDepth
  have hresolve : ∀ line, Deaf (ringing line) := .evalResolver hexec _ _
  have hparts :=
    script_in_two_parts.2.2 Play.exec ringing hexec hresolve true ["pull", " "] ["pull", "pull"]
    .none belfry _ .quit (ok_of_result? hfirst)
  exact ⟨hexec, hresolve, hfirst, _, hparts⟩

end Fable.Play
