import Fable.Proofs.Offers

namespace Fable

namespace Game

def result (g : Game) (reason : Reason) : Value :=
  .outcome reason (g.globalOr "SCORE" (.int 0)) (g.globalOr "MOVES" (.int 0)) g.diagnostics

def noted (g : Game) (e : Event) : Game := { g with log := g.log.push e }

end Game

namespace Play

open Runs Game

variable (exec : Exec) (resolve : String → Play (Option Command)) (source : Source)

def enter (start : Value) : Play Unit :=
  if start.isNone then pure () else discard <| goTo exec start

def session (lines : List Value) (start : Value) : Play Reason := do
  enter exec start
  turns exec resolve source lines

def pass (line : Value) : Play Unit := do
  showRead source (some line)
  match line.string? with
  | none => fail .noAttribute
  | some s =>
    if (Text.trim s).isEmpty then pure ()
    else if ← turn exec resolve (Text.trim s) then countMove

theorem turns_cons {line : Value} (hline : line.isNone = false) (rest : List Value) :
    turns exec resolve source (line :: rest) = (do
      if ← atLimit then pure .limit
      else
        pass exec resolve source line
        turns exec resolve source rest) := by
  rw [turns, pass]
  refine bind_congr fun limit ↦ ?_
  split
  · rfl
  rw [bind_assoc]
  refine bind_congr fun _ ↦ ?_
  rw [hline, if_neg Bool.false_ne_true]
  cases line.string? with
  | none => rfl
  | some s =>
    dsimp only
    split
    · rw [pure_bind]
    · rw [bind_assoc]
      refine bind_congr fun counts ↦ ?_
      split
      · rfl
      · rw [pure_bind]

/-- What a run makes of the way in which its session came to an end. -/
def concluded : EStateM.Result Exit Game Reason → EStateM.Result Exit Game Value
  | .ok reason k | .error (.ended reason) k => .ok (k.result reason) (k.noted (.ended reason))
  | .error e k => .error e k

variable {exec resolve source} {lines : List Value} {start : Value} {g k : Game}

theorem run_eq : run exec resolve source lines start g =
    concluded (session exec resolve source lines start g) := by
  have hsession : (do
      if !start.isNone then discard <| goTo exec start
      turns exec resolve source lines : Play Reason) = session exec resolve source lines start := by
    unfold session enter
    cases start.isNone <;> rfl
  rw [run, hsession]
  cases h : session exec resolve source lines start g with
  | ok reason k => exact bind_of_ok (tryCatch_of_ok h _) _
  | error e k =>
    cases e with
    | fault f =>
      refine bind_of_error ?_ _
      exact tryCatch_of_error h _
    | signal s =>
      refine bind_of_error ?_ _
      exact tryCatch_of_error h _
    | ended reason => exact bind_of_ok (tryCatch_of_error h _) _

theorem of_atLimit {limit : Bool} (h : atLimit g = .ok limit k) : k = g := by
  rw [atLimit, Runs.get_bind] at h
  split at h
  · cases h
    rfl
  · rw [Runs.get_bind, Runs.get_bind] at h
    exact of_lift h

/-- A line is blank, or it is resolved and performed, and perhaps counted. -/
theorem of_pass_ok {line : String} (h : pass exec resolve source (.text line) g = .ok () k) :
    ∃ u, showRead source (some (.text line)) g = .ok () u ∧
      ((Text.trim line).isEmpty ∧ k = u ∨ (Text.trim line).isEmpty = false ∧
        ∃ counts v, turn exec resolve (Text.trim line) u = .ok counts v ∧
          (if counts then countMove else pure ()) v = .ok () k) := by
  obtain ⟨_, u, hread, h⟩ := of_bind_ok h
  refine ⟨u, hread, ?_⟩
  dsimp only [Value.string?] at h
  cases hblank : (Text.trim line).isEmpty with
  | true =>
    rw [if_pos hblank] at h
    cases h
    exact .inl ⟨rfl, rfl⟩
  | false =>
    rw [hblank, if_neg Bool.false_ne_true] at h
    obtain ⟨counts, v, hturn, h⟩ := of_bind_ok h
    exact .inr ⟨rfl, counts, v, hturn, h⟩

/-- A session stops at its next line because of the limit, or it goes on once the line is passed. -/
theorem of_turns_cons_ok {line : Value} (hline : line.isNone = false)
    {rest : List Value} {reason : Reason}
    (h : turns exec resolve source (line :: rest) g = .ok reason k) :
    atLimit g = .ok true g ∧ reason = .limit ∧ k = g ∨
      atLimit g = .ok false g ∧ ∃ u, pass exec resolve source line g = .ok () u ∧
        turns exec resolve source rest u = .ok reason k := by
  rw [turns_cons _ _ _ hline] at h
  obtain ⟨limit, m, hlimit, h⟩ := of_bind_ok h
  obtain rfl := of_atLimit hlimit
  cases limit with
  | true =>
    cases h
    exact .inl ⟨hlimit, rfl, rfl⟩
  | false =>
    obtain ⟨_, u, hpass, h⟩ := of_bind_ok h
    exact .inr ⟨hlimit, u, hpass, h⟩

namespace Obeys

theorem move (id into : Value) : Obeys Unsignalled (Play.move id into) := by
  intro g
  have hrefused (f : Fault) : Obeys Unsignalled
      (if f.isAuthoring then do Play.report f; Pure.pure false else Play.fail f : Play Bool) :=
    .ite (.bind (.report f) fun _ ↦ .pure _) (.fail f)
  cases hs : Store.move id into g.store with
  | ok u s =>
    rw [exit?_of_ok (move_of_ok hs)]
    rintro s ⟨⟩
  | error f s =>
    rw [exit?, move_of_error hs]
    exact hrefused f g

theorem goTo (room : Value) : Obeys Unsignalled (Play.goTo exec room) := by
  refine .get_bind fun g ↦ .bind (.move _ room) fun moved ↦ .ite ?_ (.pure _)
  exact .bind (.setGlobal _ _) fun _ ↦ .applyAction exec room _

section

variable {R : Game → Option Exit → Game → Prop} [Speech R]

theorem firstTaken {ps : List (Play Value)} {last : Play Value} (hps : ∀ p ∈ ps, Obeys R p)
    (hlast : Obeys R last) : Obeys R (Play.firstTaken ps last) := by
  induction ps with
  | nil => exact hlast
  | cons p ps ih =>
    refine .bind (hps p (by simp)) fun v ↦ .ite (.pure v) (ih fun q hq ↦ hps q (by simp [hq]))

variable (happly : ∀ id message, Obeys R (Play.applyAction exec id message))
  (hcall : ∀ name, Obeys R (Play.call exec name []))

include happly in
theorem offerTo (id : Value) : Obeys R (Play.offerTo exec id) := .ite (.pure _) (happly id _)

include hcall in
theorem offerVerb (tag : Value) : Obeys R (Play.offerVerb exec tag) := by
  refine .bind (.get_bind fun _ ↦ .lift _) fun name ↦ .get_bind fun g ↦ ?_
  exact .ite (hcall _) (.bind (.tell _) fun _ ↦ .pure _)

include happly hcall

theorem offer (tag direct indirect : Value) : Obeys R (Play.offer exec tag direct indirect) := by
  refine .firstTaken (fun p hp ↦ ?_) (.offerVerb hcall tag)
  simp only [List.mem_cons, List.not_mem_nil, or_false] at hp
  rcases hp with rfl | rfl | rfl | rfl
  · refine .get_bind fun g ↦ .get_bind fun h ↦ .get_bind fun k ↦ ?_
    exact .ite (.pure _) (happly _ _)
  · exact .get_bind fun g ↦ happly _ _
  · exact .offerTo happly indirect
  · exact .offerTo happly direct

/-- A command obeys a rule that handlers and routines obey. -/
theorem perform_of (hask : ∀ name ∈ ["PRSA", "PRSO", "PRSI"], ∀ v, Obeys R (Play.setGlobal name v))
    (verb direct indirect : Value) : Obeys R (Play.perform exec verb direct indirect) := by
  refine .bind (.bind (.demand verb) fun _ ↦ .get_bind fun _ ↦ .pure _) fun tag ↦ ?_
  refine .bind (hask _ (by simp) _) fun _ ↦ .bind (hask _ (by simp) _) fun _ ↦
    .bind (hask _ (by simp) _) fun _ ↦ ?_
  refine .bind (.offer happly hcall tag direct indirect) fun handled ↦ .get_bind fun g ↦ ?_
  exact .bind (.bind (happly _ _) fun _ ↦ .pure ()) fun _ ↦ .pure _

end

theorem perform (verb direct indirect : Value) :
    Obeys Unsignalled (Play.perform exec verb direct indirect) :=
  .perform_of (.applyAction exec) (fun _ ↦ .call exec _ _) (fun _ _ ↦ .setGlobal _) verb
    direct indirect

theorem noteStray (s : Signal) : Obeys Unsignalled (Play.noteStray s) :=
  .bind (.note _) fun _ ↦ .modifies _

theorem tryCatch {α : Type} (p : Play α) {f : Exit → Play α} (hf : ∀ e, Obeys Unsignalled (f e)) :
    Obeys Unsignalled (tryCatch p f) := by
  intro g
  cases hp : p g with
  | ok a k =>
    rw [exit?_of_ok (tryCatch_of_ok hp f)]
    rintro s ⟨⟩
  | error e k =>
    rw [exit?, tryCatch_of_error hp]
    exact hf e k

/-- A signal from a resolver is noted, and none comes from a command. -/
theorem turn (line : String) : Obeys Unsignalled (Play.turn exec resolve line) := by
  refine .tryCatch _ fun e ↦ ?_
  cases e with
  | fault f => exact .fail f
  | signal s => exact .bind (.noteStray s) fun _ ↦ .pure true
  | ended r => exact .endGame r

theorem showRead {R : Game → Option Exit → Game → Prop} [Rule R] (line : Option Value) :
    Obeys R (Play.showRead source line) := by
  unfold Play.showRead
  split
  · exact .of_told fun _ ↦ ⟨rfl, rfl, rfl, rfl, rfl, rfl, rfl, rfl⟩
  · exact .get_bind fun _ ↦ .get_bind fun _ ↦ .bind (.lift _) fun _ ↦ .write _
  · exact .pure ()

theorem atLimit : Obeys Unsignalled Play.atLimit :=
  .get_bind fun _ ↦ .ite (.pure _) (.get_bind fun _ ↦ .get_bind fun _ ↦ .lift _)

theorem countMove : Obeys Unsignalled Play.countMove :=
  .get_bind fun _ ↦ .bind (.sum _ _) fun _ ↦ .setGlobal _ _

theorem turns (lines : List Value) : Obeys Unsignalled (Play.turns exec resolve source lines) := by
  induction lines with
  | nil => exact .bind .atLimit fun _ ↦ .ite (.pure _) (.bind (.showRead _) fun _ ↦ .pure _)
  | cons line rest ih =>
    refine .bind .atLimit fun _ ↦ .ite (.pure _) (.bind (.showRead _) fun _ ↦ .ite (.pure _) ?_)
    split
    · exact .fail _
    · refine .ite ih (.bind (.turn _) fun counts ↦ ?_)
      exact .ite (.bind .countMove fun _ ↦ ih) ih

theorem session (lines : List Value) (start : Value) :
    Obeys Unsignalled (Play.session exec resolve source lines start) :=
  .bind (.ite (.pure ()) (.bind (.goTo start) fun _ ↦ .pure ())) fun _ ↦ .turns lines

end Obeys

/-- Unless the game ends, a session stops because there are no more lines, or at the limit. -/
theorem reason_of_turns_ok {reason : Reason}
    (h : turns exec resolve source lines g = .ok reason k) :
    reason = .quit ∨ reason = .limit := by
  induction lines generalizing g with
  | nil =>
    obtain ⟨limit, m, -, h⟩ := of_bind_ok h
    split at h
    · cases h
      exact .inr rfl
    · obtain ⟨_, n, -, h⟩ := of_bind_ok h
      cases h
      exact .inl rfl
  | cons line rest ih =>
    cases hline : line.isNone with
    | true =>
      obtain ⟨limit, m, -, h⟩ := of_bind_ok h
      split at h
      · cases h
        exact .inr rfl
      · obtain ⟨_, n, -, h⟩ := of_bind_ok h
        cases h
        exact .inl rfl
    | false =>
      rcases of_turns_cons_ok hline h with ⟨-, rfl, -⟩ | ⟨-, u, -, hrest⟩
      · exact .inr rfl
      · exact ih hrest

/-- A run returns if its session stops, or if the game ends in it. -/
theorem session_of_run_ok {v : Value} {h : Game}
    (hrun : run exec resolve source lines start g = .ok v h) :
    ∃ reason k, v = k.result reason ∧ h = k.noted (.ended reason) ∧
      (session exec resolve source lines start g = .ok reason k ∧
        (reason = .quit ∨ reason = .limit) ∨
        session exec resolve source lines start g = .error (.ended reason) k) := by
  rw [run_eq] at hrun
  cases hs : session exec resolve source lines start g with
  | ok reason k =>
    rw [hs] at hrun
    cases hrun
    obtain ⟨_, u, -, hturns⟩ := of_bind_ok hs
    exact ⟨reason, k, rfl, rfl, .inl ⟨rfl, reason_of_turns_ok hturns⟩⟩
  | error e k =>
    rw [hs] at hrun
    cases e with
    | fault f => cases hrun
    | signal s => cases hrun
    | ended reason =>
      cases hrun
      exact ⟨reason, k, rfl, rfl, .inr rfl⟩

/-- Whatever routines, handlers and resolvers do, no signal gets out of a call, a message to a
handler, a move into a room or a command. A run returns the reason for which its session stopped or
the game ended in it; all that it is left by is a fault. -/
theorem signals_and_endings_contained (exec : Exec) :
    (∀ name args, Obeys Unsignalled (call exec name args)) ∧
      (∀ id message, Obeys Unsignalled (applyAction exec id message)) ∧
      (∀ room, Obeys Unsignalled (goTo exec room)) ∧
      (∀ verb direct indirect, Obeys Unsignalled (perform exec verb direct indirect)) ∧
      ∀ resolve source lines start g,
        (∃ reason k,
          (session exec resolve source lines start g = .ok reason k ∧
            (reason = .quit ∨ reason = .limit) ∨
            session exec resolve source lines start g = .error (.ended reason) k) ∧
          run exec resolve source lines start g = .ok (k.result reason) (k.noted (.ended reason))) ∨
        ∃ f k, session exec resolve source lines start g = .error (.fault f) k ∧
          run exec resolve source lines start g = .error (.fault f) k := by
  refine ⟨.call exec, .applyAction exec, .goTo, .perform, fun resolve source lines start g ↦ ?_⟩
  rw [run_eq]
  cases h : session exec resolve source lines start g with
  | ok reason k =>
    obtain ⟨_, m, -, hturns⟩ := of_bind_ok h
    exact .inl ⟨reason, k, .inl ⟨rfl, reason_of_turns_ok hturns⟩, rfl⟩
  | error e k =>
    cases e with
    | fault f => exact .inr ⟨f, k, rfl, rfl⟩
    | ended reason => exact .inl ⟨reason, k, .inr rfl, rfl⟩
    | signal s =>
      have hsession : Obeys Unsignalled (session exec resolve source lines start) :=
        .session lines start
      exact absurd rfl (hsession.ne_signal h s)

end Play

end Fable
