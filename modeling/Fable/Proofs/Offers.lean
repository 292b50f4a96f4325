import Fable.Proofs.Signals
import Fable.Proofs.Steps

namespace Fable

/-- A message to an object, or the call of a registered routine without arguments. -/
inductive Delivery
  | message (object : Value) (m : Message)
  | routine (name : String)

def Delivery.run (exec : Exec) : Delivery → Play Value
  | message object m => Play.applyAction exec object (.message m)
  | routine name => Play.call exec (.text name) []

inductive Stage
  | winner
  | room
  | indirect
  | direct
  | verb
  deriving DecidableEq

namespace Stage

def all : List Stage := [winner, room, indirect, direct, verb]

def delivery? (tag direct indirect : Value) (g : Game) : Stage → Except Fault (Option Delivery)
  | winner => .ok (if g.store.equal (g.global "WINNER") (g.global "PLAYER") then none
      else some (.message (g.global "WINNER") .action))
  | room => .ok (some (.message (g.global "HERE") .before))
  | .indirect => .ok (if indirect.isNone then none else some (.message indirect .action))
  | .direct => .ok (if direct.isNone then none else some (.message direct .action))
  | verb => (g.store.text tag).map fun name ↦
      if g.routines.contains (.text ("V-" ++ name)) then some (.routine ("V-" ++ name)) else none

end Stage

/-- An answer held, all answers were in vain, there was no routine for the verb, or there was an
exit. -/
inductive Ending
  | taken
  | passed
  | refused
  | left (e : Exit)

structure Offers where
  answers : List (Delivery × Option Value)
  ending : Ending
  game : Game

section

variable (exec : Exec) (tag direct indirect : Value)

/-- The deliveries at the stages from a game on, until the first answer that holds. -/
inductive Offered : List Stage → Game → Offers → Prop
  | exhausted (g : Game) : Offered [] g ⟨[], .passed, g⟩
  | absent {stage : Stage} {stages : List Stage} {g : Game} {o : Offers} (hs : stage ≠ .verb)
      (hd : stage.delivery? tag direct indirect g = .ok none) (hrest : Offered stages g o) :
      Offered (stage :: stages) g o
  | refused {stages : List Stage} {g : Game}
      (hd : Stage.verb.delivery? tag direct indirect g = .ok none) :
      Offered (.verb :: stages) g ⟨[], .refused, g⟩
  | failed {stage : Stage} {stages : List Stage} {g : Game} {f : Fault}
      (hd : stage.delivery? tag direct indirect g = .error f) :
      Offered (stage :: stages) g ⟨[], .left (.fault f), g⟩
  | left {stage : Stage} {stages : List Stage} {g h : Game} {d : Delivery} {e : Exit}
      (hd : stage.delivery? tag direct indirect g = .ok (some d))
      (hrun : d.run exec g = .error e h) :
      Offered (stage :: stages) g ⟨[(d, none)], .left e, h⟩
  | taken {stage : Stage} {stages : List Stage} {g h : Game} {d : Delivery} {a : Value}
      (hd : stage.delivery? tag direct indirect g = .ok (some d)) (hrun : d.run exec g = .ok a h)
      (ha : a.truthy) : Offered (stage :: stages) g ⟨[(d, some a)], .taken, h⟩
  | passed {stage : Stage} {stages : List Stage} {g h : Game} {d : Delivery}
      {a : Value} {o : Offers} (hd : stage.delivery? tag direct indirect g = .ok (some d))
      (hrun : d.run exec g = .ok a h) (ha : a.truthy = false) (hrest : Offered stages h o) :
      Offered (stage :: stages) g { o with answers := (d, some a) :: o.answers }

def Offers.outcome (o : Offers) : EStateM.Result Exit Game Bool :=
  match o.ending with
  | .taken => .ok true o.game
  | .passed => .ok false o.game
  | .refused => .ok false (o.game.wrote [.text "You can't do that.", .text "\n"])
  | .left e => .error e o.game

def Play.hearsEnd (handled : Bool) : Play Bool := do
  discard <| applyAction exec ((← get).global "HERE") (.message .after)
  pure handled

/-- What becomes of a command with these deliveries. -/
def Offers.result (o : Offers) : EStateM.Result Exit Game Bool :=
  match o.outcome with
  | .ok handled g => Play.hearsEnd exec handled g
  | .error e g => .error e g

end

theorem Play.Obeys.call (exec : Exec) (name : Value) (args : List Value) :
    Obeys Game.Unsignalled (Play.call exec name args) :=
  .bind (.bind (.demand _) fun _ ↦ .get_bind fun _ ↦ .pure _) fun _ ↦ .ite (.pure _) (.boundary _)

theorem Play.Obeys.applyAction (exec : Exec) (id message : Value) :
    Obeys Game.Unsignalled (Play.applyAction exec id message) := by
  refine .bind (.demand _) fun _ ↦ .get_bind fun g ↦ ?_
  split
  · exact .pure _
  · exact .ite (.pure _) (.ite (.call exec _ _) (.boundary _))

theorem Play.Obeys.delivery (exec : Exec) (d : Delivery) : Obeys Game.Unsignalled (d.run exec) := by
  cases d with
  | message object m => exact .applyAction exec object _
  | routine name => exact .call exec _ _

namespace Offered

variable {exec : Exec} {tag direct indirect : Value} {stages : List Stage}
  {g : Game} {o o' : Offers}

theorem unique (h : Offered exec tag direct indirect stages g o)
    (h' : Offered exec tag direct indirect stages g o') : o = o' := by
  induction h generalizing o' with
  | exhausted g =>
    cases h'
    rfl
  | absent hs hd _ ih =>
    cases h' with
    | absent _ _ hrest' => exact ih hrest'
    | refused hd' => exact absurd rfl hs
    | failed hd' | left hd' _ | taken hd' _ _ | passed hd' _ _ _ => simp [hd] at hd'
  | refused hd =>
    cases h' with
    | absent hs _ _ => exact absurd rfl hs
    | refused _ => rfl
    | failed hd' | left hd' _ | taken hd' _ _ | passed hd' _ _ _ => simp [hd] at hd'
  | failed hd =>
    cases h' with
    | failed hd' =>
      cases hd.symm.trans hd'
      rfl
    | absent _ hd' _ | refused hd' | left hd' _ | taken hd' _ _ | passed hd' _ _ _ =>
      simp [hd] at hd'
  | left hd hrun =>
    cases h' with
    | absent _ hd' _ | refused hd' | failed hd' => simp [hd] at hd'
    | left hd' hrun' =>
      cases hd.symm.trans hd'
      cases hrun.symm.trans hrun'
      rfl
    | taken hd' hrun' _ | passed hd' hrun' _ _ =>
      cases hd.symm.trans hd'
      cases hrun.symm.trans hrun'
  | taken hd hrun ha =>
    cases h' with
    | absent _ hd' _ | refused hd' | failed hd' => simp [hd] at hd'
    | left hd' hrun' =>
      cases hd.symm.trans hd'
      cases hrun.symm.trans hrun'
    | taken hd' hrun' _ =>
      cases hd.symm.trans hd'
      cases hrun.symm.trans hrun'
      rfl
    | passed hd' hrun' ha' _ =>
      cases hd.symm.trans hd'
      cases hrun.symm.trans hrun'
      simp [ha] at ha'
  | passed hd hrun ha _ ih =>
    cases h' with
    | absent _ hd' _ | refused hd' | failed hd' => simp [hd] at hd'
    | left hd' hrun' =>
      cases hd.symm.trans hd'
      cases hrun.symm.trans hrun'
    | taken hd' hrun' ha' =>
      cases hd.symm.trans hd'
      cases hrun.symm.trans hrun'
      simp [ha] at ha'
    | passed hd' hrun' _ hrest' =>
      cases hd.symm.trans hd'
      cases hrun.symm.trans hrun'
      rw [ih hrest']

/-- Every answer but the last one was in vain. -/
theorem falsy_of_mem_dropLast (h : Offered exec tag direct indirect stages g o)
    {p : Delivery × Option Value} (hp : p ∈ o.answers.dropLast) :
    ∃ a, p.2 = some a ∧ a.truthy = false := by
  induction h with
  | exhausted | refused | failed | left | taken => simp at hp
  | absent hs hd hrest ih => exact ih hp
  | @passed stage stages g h d a o hd hrun ha hrest ih =>
    cases ho : o.answers with
    | nil => simp [ho] at hp
    | cons q qs =>
      rw [ho, List.dropLast_cons_cons, List.mem_cons, ← ho] at hp
      rcases hp with rfl | hp
      · exact ⟨a, rfl, ha⟩
      · exact ih hp

theorem taken_iff (h : Offered exec tag direct indirect stages g o) :
    o.ending = .taken ↔ ∃ d a, (d, some a) ∈ o.answers ∧ a.truthy := by
  induction h with
  | exhausted g => simp
  | absent hs hd hrest ih => exact ih
  | refused hd => simp
  | failed hd => simp
  | left hd hrun => simp
  | taken hd hrun ha => simp [ha]
  | passed hd hrun ha hrest ih =>
    rw [ih]
    constructor
    · rintro ⟨d, a, hmem, ht⟩
      exact ⟨d, a, List.mem_cons_of_mem _ hmem, ht⟩
    · rintro ⟨d, a, hmem, ht⟩
      rcases List.mem_cons.1 hmem with he | hmem
      · cases he
        simp [ha] at ht
      · exact ⟨d, a, hmem, ht⟩

theorem not_signal_of_left (h : Offered exec tag direct indirect stages g o) {e : Exit}
    (he : o.ending = .left e) (s : Signal) : e ≠ .signal s := by
  induction h with
  | exhausted | refused | taken => cases he
  | absent hs hd hrest ih => exact ih he
  | failed hd =>
    cases he
    nofun
  | @left stage stages g h d e' hd hrun =>
    cases he
    exact (Play.Obeys.delivery exec d).ne_signal hrun s
  | passed hd hrun ha hrest ih => exact ih he

end Offered

namespace Play

open Runs

def anyTaken : List (Play Value) → Play Bool
  | [] => pure false
  | p :: ps => do if (← p).truthy then pure true else anyTaken ps

theorem firstTaken_truthy (ps : List (Play Value)) (last : Play Value) :
    (firstTaken ps last >>= fun v ↦ pure v.truthy) = anyTaken (ps ++ [last]) := by
  induction ps with
  | nil =>
    refine bind_congr fun v ↦ ?_
    cases v.truthy <;> rfl
  | cons p ps ih =>
    rw [firstTaken, bind_assoc, List.cons_append, anyTaken]
    refine bind_congr fun v ↦ ?_
    cases hv : v.truthy with
    | true => simp only [if_true, pure_bind, hv]
    | false => simpa using ih

end Play

namespace Stage

open Play Runs

variable (exec : Exec) (tag direct indirect : Value)

def play : Stage → Play Value
  | winner => do
    let winner := (← get).global "WINNER"
    if (← get).store.equal winner ((← get).global "PLAYER") then pure .none
    else applyAction exec winner (.message .action)
  | room => do applyAction exec ((← get).global "HERE") (.message .before)
  | .indirect => offerTo exec indirect
  | .direct => offerTo exec direct
  | verb => offerVerb exec tag

def unanswered (g : Game) : Stage → EStateM.Result Exit Game Value
  | verb => .ok (.bool false) (g.wrote [.text "You can't do that.", .text "\n"])
  | _ => .ok .none g

def outcome (stage : Stage) (g : Game) : EStateM.Result Exit Game Value :=
  match stage.delivery? tag direct indirect g with
  | .ok (some d) => d.run exec g
  | .ok none => stage.unanswered g
  | .error f => .error (.fault f) g

theorem play_eq (stage : Stage) (g : Game) :
    stage.play exec tag direct indirect g = stage.outcome exec tag direct indirect g := by
  cases stage with
  | winner =>
    rw [play, Runs.get_bind, Runs.get_bind, Runs.get_bind]
    dsimp only [outcome, delivery?]
    split <;> rfl
  | room => rfl
  | indirect | direct =>
    dsimp only [play, offerTo, outcome, delivery?]
    split <;> rfl
  | verb =>
    dsimp only [play, offerVerb, outcome, delivery?]
    cases ht : g.store.text tag with
    | error f =>
      rw [bind_of_error (text_of_error ht)]
      rfl
    | ok name =>
      rw [bind_of_ok (text_of_ok ht), Runs.get_bind]
      dsimp only [Except.map]
      split
      · rfl
      · exact bind_of_ok (tell_of_render rfl) _

/-- Offering a command stage by stage makes the deliveries that the rules give. -/
theorem exists_offered {stages : List Stage} (hs : stages.Pairwise fun s _ ↦ s ≠ verb) (g : Game) :
    ∃ o, Offered exec tag direct indirect stages g o ∧
      anyTaken (stages.map (play exec tag direct indirect)) g = o.outcome := by
  induction stages generalizing g with
  | nil => exact ⟨_, .exhausted g, rfl⟩
  | cons stage stages ih =>
    obtain ⟨hfirst, hrest⟩ := List.pairwise_cons.1 hs
    have hplay := play_eq exec tag direct indirect stage g
    rw [outcome] at hplay
    rw [List.map_cons, anyTaken]
    cases hd : stage.delivery? tag direct indirect g with
    | error f =>
      rw [hd] at hplay
      exact ⟨_, .failed hd, bind_of_error hplay _⟩
    | ok d =>
      rw [hd] at hplay
      cases d with
      | none =>
        by_cases hv : stage = verb
        · subst hv
          -- Nothing comes after the verb, so that there is nobody left to ask.
          have hlast : stages = [] := List.eq_nil_iff_forall_not_mem.2 fun s hs ↦ hfirst s hs rfl
          subst hlast
          exact ⟨_, .refused hd, bind_of_ok hplay _⟩
        · have hskip : stage.play exec tag direct indirect g = .ok .none g := by
            rw [hplay]
            cases stage with
            | verb => exact absurd rfl hv
            | _ => rfl
          obtain ⟨o, ho, hrun⟩ := ih hrest g
          refine ⟨o, .absent hv hd ho, ?_⟩
          rw [bind_of_ok hskip]
          exact hrun
      | some d =>
        cases hrun : d.run exec g with
        | error e h => exact ⟨_, .left hd hrun, bind_of_error (hplay.trans hrun) _⟩
        | ok a h =>
          rw [bind_of_ok (hplay.trans hrun)]
          cases ha : a.truthy with
          | true => exact ⟨_, .taken hd hrun ha, rfl⟩
          | false =>
            obtain ⟨o, ho, hrest⟩ := ih hrest h
            exact ⟨_, .passed hd hrun ha ho, hrest⟩

end Stage

namespace Play

open Runs

theorem perform_eq (exec : Exec) {verb : Value} (hv : verb.hashable)
    (direct indirect : Value) (g : Game) :
    perform exec verb direct indirect g =
      (anyTaken (Stage.all.map (Stage.play exec (g.verbTag verb) direct indirect)) >>=
        hearsEnd exec)
        (g.asked (g.verbTag verb) direct indirect) := by
  have hoffer : (offer exec (g.verbTag verb) direct indirect >>= fun v ↦ pure v.truthy) =
      anyTaken (Stage.all.map (Stage.play exec (g.verbTag verb) direct indirect)) :=
        firstTaken_truthy _ _
  rw [perform, bind_of_ok (verbTag_of_hashable hv g), ← hoffer, bind_assoc]
  rfl

theorem of_hearsEnd {exec : Exec} {handled b : Bool} {g h : Game}
    (hrun : hearsEnd exec handled g = .ok b h) : b = handled := by
  rw [hearsEnd, Runs.get_bind] at hrun
  obtain ⟨u, k, -, hpure⟩ := of_bind_ok hrun
  cases hpure
  rfl

/-- A command that returns says whether an answer held. -/
theorem truthy_iff_of_result {exec : Exec} {tag direct indirect : Value}
    {stages : List Stage} {g h : Game} {o : Offers}
    (ho : Offered exec tag direct indirect stages g o) {b : Bool} (hb : o.result exec = .ok b h) :
    b ↔ ∃ d a, (d, some a) ∈ o.answers ∧ a.truthy := by
  rw [← ho.taken_iff]
  cases hend : o.ending with
  | left e => simp [Offers.result, Offers.outcome, hend] at hb
  | taken | passed | refused =>
    simp only [Offers.result, Offers.outcome, hend] at hb
    simp [of_hearsEnd hb]

/-- A command that can be looked up makes exactly the deliveries that the rules give: no answer
before the last one held. What becomes of it is read off them, so that unless it was left by an
exit, which is no signal, the room hears of its end, and if it returns it says whether an answer
held. -/
theorem perform_offers_in_order (exec : Exec) (verb direct indirect : Value) (g : Game) :
    (verb.hashable = false ∧ perform exec verb direct indirect g = .error (.fault .mismatch) g) ∨
      ∃! o, Offered exec (g.verbTag verb) direct indirect Stage.all
          (g.asked (g.verbTag verb) direct indirect) o ∧
        (∀ p ∈ o.answers.dropLast, ∃ a, p.2 = some a ∧ a.truthy = false) ∧
        (∀ e s, o.ending = .left e → e ≠ .signal s) ∧
        perform exec verb direct indirect g = o.result exec ∧
        ∀ b h, perform exec verb direct indirect g = .ok b h →
          (b ↔ ∃ d a, (d, some a) ∈ o.answers ∧ a.truthy) := by
  cases hv : verb.hashable with
  | false =>
    refine .inl ⟨rfl, ?_⟩
    have hdemand := demand_of_not_hashable (Bool.eq_false_iff.1 hv) g
    rw [perform, verbTag, bind_of_error (bind_of_error hdemand _)]
  | true =>
    have hlast : Stage.all.Pairwise fun s _ ↦ s ≠ .verb := by decide
    obtain ⟨o, ho, hrun⟩ := Stage.exists_offered exec (g.verbTag verb) direct indirect hlast
      (g.asked (g.verbTag verb) direct indirect)
    have hresult : perform exec verb direct indirect g = o.result exec := by
      rw [perform_eq exec hv, Offers.result]
      cases hend : o.outcome with
      | ok handled h => exact bind_of_ok (hrun.trans hend) _
      | error e h => exact bind_of_error (hrun.trans hend) _
    have hsays : ∀ b h, perform exec verb direct indirect g = .ok b h →
        (b ↔ ∃ d a, (d, some a) ∈ o.answers ∧ a.truthy) :=
      fun b h hb ↦ truthy_iff_of_result ho (hresult.symm.trans hb)
    refine .inr ⟨o, ⟨ho, ?_, ?_, hresult, hsays⟩, fun o' ho' ↦ ho'.1.unique ho⟩
    · exact fun p ↦ ho.falsy_of_mem_dropLast
    · exact fun e s he ↦ ho.not_signal_of_left he s

end Play

end Fable
