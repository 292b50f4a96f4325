import Fable.Proofs.Telling
import Fable.Proofs.Verbal
import Fable.Script.Eval

namespace Fable

def Game.relog (g : Game) (l : Array Event) : Game := { g with log := l }

theorem Resolver.match?_relog (g : Game) (l : Array Event) : match? (g.relog l) = match? g := rfl

theorem Resolver.resolve_relog (g : Game) (l : Array Event) : resolve (g.relog l) = resolve g := by
  have hverb : resolveVerb (g.relog l) = resolveVerb g := by
    funext walkVerb verb rest
    unfold resolveVerb fill matchPhrase
    rw [match?_relog]
    rfl
  funext walkVerb line
  rw [resolve, resolve, hverb]

/-- Operations that run routines or end the game. -/
def Op.isLively : Op → Bool
  | invoke | call | applyAction | perform | goTo | die | win | quit => true
  | _ => false

namespace Play

open Runs

variable {α β : Type}

def relogged (l : Array Event) : EStateM.Result Exit Game α → EStateM.Result Exit Game α
  | .ok a g => .ok a (g.relog l)
  | .error e g => .error e (g.relog l)

/-- If the log is another one, then so it is afterwards, and that is all the difference. -/
def Deaf (p : Play α) : Prop := ∀ g l, ∃ l', p (g.relog l) = relogged l' (p g)

structure Plain (p : Play α) : Prop where
  deaf : Deaf p
  unended : ∀ g r h, p g ≠ .error (.ended r) h

namespace Deaf

theorem throw (e : Exit) : Deaf (throw e : Play α) := fun _ l ↦ ⟨l, rfl⟩

theorem bind {p : Play α} {f : α → Play β} (hp : Deaf p) (hf : ∀ a, Deaf (f a)) :
    Deaf (p >>= f) := by
  intro g l
  obtain ⟨m, hm⟩ := hp g l
  cases hrun : p g with
  | ok a k =>
    rw [hrun] at hm
    rw [bind_of_ok hm, bind_of_ok hrun]
    exact hf a k m
  | error e k =>
    rw [hrun] at hm
    rw [bind_of_error hm, bind_of_error hrun]
    exact ⟨m, rfl⟩

theorem get_bind {f : Game → Play β} (hf : ∀ g, Deaf (f g)) (hlog : ∀ g l, f (g.relog l) = f g) :
    Deaf (MonadState.get >>= f) := by
  intro g l
  rw [Runs.get_bind, Runs.get_bind, hlog]
  exact hf g g l

theorem tryCatch {p : Play α} {f : Exit → Play α} (hp : Deaf p) (hf : ∀ e, Deaf (f e)) :
    Deaf (tryCatch p f) := by
  intro g l
  obtain ⟨m, hm⟩ := hp g l
  cases hrun : p g with
  | ok a k =>
    rw [hrun] at hm
    rw [tryCatch_of_ok hm, tryCatch_of_ok hrun]
    exact ⟨m, rfl⟩
  | error e k =>
    rw [hrun] at hm
    rw [tryCatch_of_error hm, tryCatch_of_error hrun]
    exact hf e k m

theorem ite {c : Prop} [Decidable c] {p q : Play α} (hp : Deaf p) (hq : Deaf q) :
    Deaf (if c then p else q) := by
  split
  · exact hp
  · exact hq

end Deaf

namespace Plain

theorem pure (a : α) : Plain (pure a) := ⟨fun _ l ↦ ⟨l, rfl⟩, fun _ _ _ ↦ nofun⟩

theorem fail (f : Fault) : Plain (Play.fail f : Play α) := ⟨.throw _, fun _ _ _ ↦ nofun⟩

theorem signal (s : Signal) : Plain (Play.signal s : Play α) := ⟨.throw _, fun _ _ _ ↦ nofun⟩

-- What comes after the exit of a routine is never reached, whatever it is.
theorem signal_bind (s : Signal) (f : α → Play β) : Plain (Play.signal s >>= f) :=
  ⟨fun _ l ↦ ⟨l, rfl⟩, fun _ _ _ ↦ nofun⟩

theorem bind {p : Play α} {f : α → Play β} (hp : Plain p) (hf : ∀ a, Plain (f a)) :
    Plain (p >>= f) := by
  refine ⟨hp.deaf.bind fun a ↦ (hf a).deaf, fun g r h hrun ↦ ?_⟩
  cases hg : p g with
  | ok a k =>
    rw [bind_of_ok hg] at hrun
    exact (hf a).unended k r h hrun
  | error e k =>
    rw [bind_of_error hg] at hrun
    exact hp.unended g r h (hg.trans (by cases hrun; rfl))

theorem get_bind {f : Game → Play β} (hf : ∀ g, Plain (f g)) (hlog : ∀ g l, f (g.relog l) = f g) :
    Plain (MonadState.get >>= f) :=
  ⟨.get_bind (fun g ↦ (hf g).deaf) hlog, fun g ↦ (hf g).unended g⟩

theorem modifies {f : Game → Game} (hf : ∀ g l, ∃ l', f (g.relog l) = (f g).relog l') :
    Plain (modify f) := by
  refine ⟨fun g l ↦ ?_, fun _ _ _ ↦ nofun⟩
  obtain ⟨m, hm⟩ := hf g l
  exact ⟨m, congrArg (EStateM.Result.ok ()) hm⟩

theorem tryCatch {p : Play α} {f : Exit → Play α} (hp : Plain p)
    (hfault : ∀ x, Plain (f (.fault x))) (hsignal : ∀ s, Plain (f (.signal s)))
    (hended : ∀ r, Deaf (f (.ended r))) : Plain (tryCatch p f) := by
  refine ⟨hp.deaf.tryCatch fun e ↦ ?_, fun g r h hrun ↦ ?_⟩
  · cases e with
    | fault x => exact (hfault x).deaf
    | signal s => exact (hsignal s).deaf
    | ended r => exact hended r
  · cases hg : p g with
    | ok a k =>
      rw [tryCatch_of_ok hg] at hrun
      cases hrun
    | error e k =>
      rw [tryCatch_of_error hg] at hrun
      cases e with
      | fault x => exact (hfault x).unended k r h hrun
      | signal s => exact (hsignal s).unended k r h hrun
      | ended q => exact hp.unended g q k hg

theorem ite {c : Prop} [Decidable c] {p q : Play α} (hp : Plain p) (hq : Plain q) :
    Plain (if c then p else q) := by
  split
  · exact hp
  · exact hq

theorem forM {xs : List α} {f : α → Play Unit} (hf : ∀ x, Plain (f x)) : Plain (xs.forM f) := by
  induction xs with
  | nil => exact .pure ()
  | cons x xs ih => exact .bind (hf x) fun _ ↦ ih

theorem discard {p : Play α} (hp : Plain p) : Plain (discard p) :=
  .bind hp fun _ ↦ .pure ()

theorem lift (e : Except Fault α) : Plain (Play.lift e) := by
  cases e with
  | ok a => exact .pure a
  | error f => exact .fail f

theorem onStore (c : Store.Change α) : Plain (Play.onStore c) := by
  refine ⟨fun g l ↦ ⟨l, ?_⟩, fun g r h hrun ↦ ?_⟩
  · cases hc : c g.store with
    | ok a s => rw [onStore_of_ok hc, onStore_of_ok (g := g.relog l) hc]; rfl
    | error f s => rw [onStore_of_error hc, onStore_of_error (g := g.relog l) hc]; rfl
  · cases hc : c g.store with
    | ok a s => rw [onStore_of_ok hc] at hrun; cases hrun
    | error f s => rw [onStore_of_error hc] at hrun; cases hrun

theorem onGenerator (d : Draw α) : Plain (Play.onGenerator d) := by
  refine ⟨fun g l ↦ ⟨l, ?_⟩, fun g r h hrun ↦ ?_⟩
  · show Play.onGenerator d (g.relog l) = relogged l (Play.onGenerator d g)
    unfold Play.onGenerator
    have hgenerator : (g.relog l).generator = g.generator := rfl
    rw [hgenerator]
    cases d g.generator with
    | ok a t => rfl
    | error f t => rfl
  · unfold Play.onGenerator at hrun
    split at hrun <;> cases hrun

theorem newStamps (n : Nat) : Plain (Play.newStamps n) := ⟨fun _ l ↦ ⟨l, rfl⟩, fun _ _ _ ↦ nofun⟩

theorem freshCopy (v : Value) : Plain (Play.freshCopy v) := ⟨fun _ l ↦ ⟨l, rfl⟩, fun _ _ _ ↦ nofun⟩

theorem fresh (v : Value) : Plain (Play.fresh v) := by
  obtain ⟨n, f, hv⟩ := exists_fresh_eq v
  rw [hv]
  exact .bind (.newStamps n) fun _ ↦ .pure _

theorem sum (v w : Value) : Plain (Play.sum v w) := .bind (.lift _) .fresh

theorem text (v : Value) : Plain (Play.text v) := .get_bind (fun _ ↦ .lift _) fun _ _ ↦ rfl

theorem demand (v : Value) : Plain (Play.demand v) := .ite (.pure ()) (.fail _)

theorem write (v : Value) : Plain (Play.write v) := .modifies fun _ l ↦ ⟨l, rfl⟩

theorem note (e : Event) : Plain (Play.note e) := .modifies fun _ l ↦ ⟨l.push e, rfl⟩

theorem setGlobal (name : String) (v : Value) : Plain (Play.setGlobal name v) :=
  .modifies fun _ l ↦ ⟨l, rfl⟩

theorem configure (s : Setting) (v : Value) : Plain (Play.configure s v) :=
  .modifies fun _ l ↦ ⟨l, rfl⟩

theorem report (f : Fault) : Plain (Play.report f) := by
  refine .get_bind (fun g ↦ ?_) fun _ _ ↦ rfl
  have hrest : Plain (do
      Play.note (.authoring f.text)
      modify fun g ↦ { g with diagnostics := g.diagnostics ++ [f.text] } : Play Unit) :=
    .bind (.note _) fun _ ↦ .modifies fun _ l ↦ ⟨l, rfl⟩
  exact .ite (.bind (.fail f) fun _ ↦ hrest) hrest

theorem surviving {p : Play α} (hp : Plain p) (instead : α) : Plain (Play.surviving p instead) :=
  .tryCatch hp (fun _ ↦ .ite (.bind (.report _) fun _ ↦ .pure _) (.fail _)) (fun _ ↦ .signal _)
    fun _ ↦ .throw _

theorem reset : Plain Play.reset := by
  refine .get_bind (fun g ↦ .get_bind (fun k ↦ ?_) fun _ _ ↦ rfl) fun _ _ ↦ rfl
  split
  · exact .fail _
  · refine .bind (.modifies fun _ l ↦ ⟨l, rfl⟩) fun _ ↦ .bind (.lift _) fun _ ↦ ?_
    exact .bind (.modifies fun _ l ↦ ⟨l, rfl⟩) fun _ ↦ .note _

theorem define (id : Value) (a : Attributes) : Plain (Play.define id a) := .surviving (.onStore _) _

theorem move (id into : Value) : Plain (Play.move id into) :=
  .surviving (.bind (.onStore _) fun _ ↦ .pure _) _

theorem hasFlag (id flag : Value) : Plain (Play.hasFlag id flag) := by
  refine .bind (.demand id) fun _ ↦ .get_bind (fun g ↦ ?_) fun _ _ ↦ rfl
  have hrest : Plain (do Pure.pure ((← MonadState.get).store.hasFlag id flag) : Play Bool) :=
    .get_bind (fun _ ↦ .pure _) fun _ _ ↦ rfl
  exact .ite (.bind (.fail _) fun _ ↦ hrest) hrest

theorem verbTag (verb : Value) : Plain (Play.verbTag verb) :=
  .bind (.demand verb) fun _ ↦ .get_bind (fun _ ↦ .pure _) fun _ _ ↦ rfl

theorem verbIs (verbs : List Value) : Plain (Play.verbIs verbs) := by
  induction verbs with
  | nil => exact .pure false
  | cons v vs ih =>
    refine .get_bind (fun g ↦ .ite (.pure false) ?_) fun _ _ ↦ rfl
    refine .get_bind (fun k ↦ .bind (.verbTag v) fun tag ↦ ?_) fun _ _ ↦ rfl
    exact .get_bind (fun m ↦ .ite (.pure true) ih) fun _ _ ↦ rfl

theorem registerVerb (verb tag : Value) : Plain (Play.registerVerb verb tag) :=
  .bind (.demand verb) fun _ ↦ .bind (.modifies fun _ l ↦ ⟨l, rfl⟩) fun _ ↦ .pure _

theorem registerRoutine (name r : Value) : Plain (Play.registerRoutine name r) :=
  .bind (.demand name) fun _ ↦ .bind (.modifies fun _ l ↦ ⟨l, rfl⟩) fun _ ↦ .pure _

theorem routine (name : Value) : Plain (Play.routine name) :=
  .bind (.demand name) fun _ ↦ .get_bind (fun _ ↦ .pure _) fun _ _ ↦ rfl

theorem score (points : Value) : Plain (Play.score points) :=
  .get_bind (fun _ ↦ .bind (.sum _ _) fun _ ↦ .bind (.setGlobal _ _) fun _ ↦ .pure _) fun _ _ ↦ rfl

theorem tell (tokens : List Value) : Plain (Play.tell tokens) := by
  refine .get_bind (fun g ↦ .bind (.forM .write) fun _ ↦ ?_) fun _ _ ↦ rfl
  split
  · exact .ite (.report _) (.fail _)
  · exact .pure ()

end Plain

/-- The log is out of the sight of verbs. -/
theorem Verbal.plain {p : Play α} (hp : Verbal p) : Plain p := by
  induction hp with
  | pure a => exact .pure a
  | fail f => exact .fail f
  | signal s => exact .signal s
  | signal_bind s f => exact .signal_bind s f
  | bind _ _ ihp ihf => exact .bind ihp ihf
  | look hsame _ ih => exact .get_bind ih fun g l ↦ hsame g { g.veil with log := l }
  | newStamps n => exact .newStamps n
  | tell tokens => exact .tell tokens
  | move id into => exact .move id into
  | setFlag | clearFlag => exact .onStore _
  | refuse => exact .bind (.onGenerator _) fun _ ↦ .tell _
  | reward id => exact .get_bind (fun _ ↦ .discard (.score _)) fun _ _ ↦ rfl

namespace Plain

theorem newRoutine (name : String) (body : Body) : Plain (Play.newRoutine name body) :=
  .bind (.newStamps 1) fun _ ↦ .pure _

theorem installStandardVerbs : Plain Play.installStandardVerbs := by
  refine .bind (.forM fun _ ↦ .discard (.registerVerb _ _)) fun _ ↦ .forM fun v ↦ ?_
  exact .bind (.newRoutine _ _) fun _ ↦ .discard (.registerRoutine _ _)

theorem installObject (o : World.ObjectSpec) : Plain o.install := by
  refine .get_bind (fun g ↦ .bind (.lift _) fun _ ↦ .bind (.freshCopy _) fun _ ↦ ?_) fun _ _ ↦ rfl
  refine .tryCatch (.discard (.onStore _)) (fun f ↦ ?_) (fun _ ↦ .signal _) fun _ ↦ .throw _
  cases f with
  | cycle x p => exact .fail _
  | _ => exact .fail _

theorem installWorld (w : World.Spec) : Plain w.install := by
  have hrest : Plain (do
      Play.note (.installed w.title w.objects.length)
      Pure.pure (World.optional w.start) : Play Value) := .bind (.note _) fun _ ↦ .pure _
  refine .bind (.forM fun _ ↦ .modifies fun _ l ↦ ⟨l, rfl⟩) fun _ ↦ ?_
  refine .bind (.forM fun _ ↦ .discard (.registerVerb _ _)) fun _ ↦
    .bind (.forM .installObject) fun _ ↦ ?_
  split
  · exact hrest
  · exact .get_bind (fun _ ↦ .ite (.bind (.fail _) fun _ ↦ hrest) hrest) fun _ _ ↦ rfl

theorem resolve (walkVerb : Value) (line : String) : Plain (Play.resolve walkVerb line) :=
  .get_bind (fun _ ↦ .lift _) fun g l ↦ by rw [Resolver.resolve_relog]

theorem world (v : Value) : Plain (Play.world v) := by
  refine .bind (.newStamps _) fun n ↦ ?_
  split
  · exact .installWorld _
  · exact .fail _

theorem resolveLine (line walkVerb : Value) : Plain (Play.resolveLine line walkVerb) := by
  unfold Play.resolveLine
  split
  · exact .fail _
  · refine .bind (.resolve _ _) fun c ↦ ?_
    split
    · exact .fresh _
    · exact .pure _

theorem ask {f : Game → Value} (hlog : ∀ g l, f (g.relog l) = f g) : Plain (Play.ask f) :=
  .get_bind (fun _ ↦ .pure _) fun g l ↦ by rw [hlog]

theorem askOf (id : Value) {f : Game → Value} (hlog : ∀ g l, f (g.relog l) = f g) :
    Plain (Play.askOf id f) :=
  .bind (.demand id) fun _ ↦ .ask hlog

theorem change (c : Store.Change Unit) : Plain (Play.change c) := .bind (.onStore c) fun _ ↦ .pure _

theorem locate (id levels : Value) : Plain (Play.locate id levels) := by
  refine .bind (.lift _) fun few ↦ .ite (.bind (.fail _) fun _ ↦ ?_) ?_
  all_goals
    refine .bind (.demand id) fun _ ↦ ?_
    cases levels.int? with
    | none => exact .fail _
    | some n => exact .ask fun _ _ ↦ rfl

theorem assignGlobal (name v : Value) : Plain (Play.assignGlobal name v) :=
  .bind (.demand name) fun _ ↦ .bind (.modifies fun _ l ↦ ⟨l, rfl⟩) fun _ ↦ .pure _

theorem argument (args : List Value) (i : Value) : Plain (Play.argument args i) := by
  unfold Play.argument
  split
  · exact .pure _
  · exact .fail _

theorem applyObjects (o : Op) (vs : List Value) : Plain (Play.applyObjects o vs) := by
  unfold Play.applyObjects
  split
  any_goals exact .askOf _ fun _ _ ↦ rfl
  any_goals exact .ask fun _ _ ↦ rfl
  any_goals exact .change _
  any_goals exact .locate _ _
  any_goals exact (Verbal.property _ _ _).plain
  · exact .define _ _
  · exact .bind (.lift _) fun _ ↦ .define _ _
  · exact .onStore _
  · exact .bind (.lift _) fun _ ↦ .onStore _
  · exact .bind (.move _ _) fun _ ↦ .pure _
  · exact .bind (.demand _) fun _ ↦ .get_bind (fun _ ↦ .lift _) fun _ _ ↦ rfl
  · exact .bind (.hasFlag _ _) fun _ ↦ .pure _
  · exact .bind (Verbal.inScope _).plain fun _ ↦ .pure _
  · exact .get_bind (fun _ ↦ .lift _) fun _ _ ↦ rfl
  · exact .get_bind (fun _ ↦ .bind (.lift _) fun _ ↦ .bind (.freshCopy _) .fresh) fun _ _ ↦ rfl
  · exact .fail _

theorem applyTables (o : Op) (vs : List Value) : Plain (Play.applyTables o vs) := by
  unfold Play.applyTables
  split
  any_goals exact .askOf _ fun _ _ ↦ rfl
  any_goals exact .ask fun _ _ ↦ rfl
  any_goals exact .registerVerb _ _
  · exact .assignGlobal _ _
  · exact .get_bind (fun _ ↦ .fresh _) fun _ _ ↦ rfl
  · exact .registerRoutine _ _
  · exact .bind (.verbIs _) fun _ ↦ .pure _
  · exact .fail _

theorem applyPlay (exec : Exec) {o : Op} (ho : o.isLively = false) (vs : List Value) :
    Plain (Play.applyPlay exec o vs) := by
  unfold Play.applyPlay
  split
  any_goals contradiction
  · exact .bind (.tell _) fun _ ↦ .pure _
  · exact .score _
  · exact .onGenerator _
  · exact .onGenerator _
  · exact .onGenerator _
  · exact .bind .reset fun _ ↦ .pure _
  · exact .bind .installStandardVerbs fun _ ↦ .pure _
  · exact (Verbal.weight _).plain
  · exact .bind (Verbal.describeContents _).plain fun _ ↦ .pure _
  · exact .bind (Verbal.describeRoom _).plain fun _ ↦ .pure _
  · exact .bind (Verbal.describeRoom _).plain fun _ ↦ .pure _
  · exact .world _
  · exact .resolveLine _ _
  · exact .resolveLine _ _
  · refine .get_bind (fun g ↦ ?_) fun _ _ ↦ rfl
    exact .bind (.lift g.snapshot) fun _ ↦ .bind (.freshCopy _) .fresh
  · exact .bind (.configure _ _) fun _ ↦ .pure _
  · exact .fail _

/-- Only operations that run routines or end the game can end the game. -/
theorem apply (exec : Exec) (args : List Value) {o : Op}
    (ho : o.isLively = false) (vs : List Value) :
    Plain (Play.apply exec args o vs) := by
  unfold Play.apply
  split
  any_goals exact .signal _
  · exact .argument _ _
  · exact .fresh _
  · exact .pure _
  · exact .sum _ _
  · exact .ask fun _ _ ↦ rfl
  · split
    any_goals exact .applyObjects _ _
    any_goals exact .applyTables _ _
    exact .applyPlay exec ho _

theorem showRead (source : Source) (line : Option Value) : Plain (Play.showRead source line) := by
  unfold Play.showRead
  split
  · exact .modifies fun _ l ↦ ⟨l, rfl⟩
  · refine .get_bind (fun _ ↦ .get_bind (fun _ ↦ ?_) fun _ _ ↦ rfl) fun _ _ ↦ rfl
    exact .bind (.lift _) fun _ ↦ .write _
  · exact .pure ()

theorem atLimit : Plain Play.atLimit := by
  refine .get_bind (fun g ↦ .ite (.pure _) ?_) fun _ _ ↦ rfl
  exact .get_bind (fun _ ↦ .get_bind (fun _ ↦ .lift _) fun _ _ ↦ rfl) fun _ _ ↦ rfl

theorem noteStray (s : Signal) : Plain (Play.noteStray s) :=
  .bind (.note _) fun _ ↦ .modifies fun _ l ↦ ⟨l, rfl⟩

theorem countMove : Plain Play.countMove :=
  .get_bind (fun _ ↦ .bind (.sum _ _) fun _ ↦ .setGlobal _ _) fun _ _ ↦ rfl

end Plain

theorem apply_of_isLively (exec : Exec) (args : List Value) {o : Op}
    (ho : o.isLively) (vs : List Value) :
    apply exec args o vs = applyPlay exec o vs := by
  cases o <;> first | rfl | contradiction

def called (args : List Value) : Code → List Value × Code
  | .routine _ body => ([], body)
  | c => (args, c)

theorem evalItems_cons (exec : Exec) (args : List Value) (last : Value)
    (c : Code) (cs : List Code) :
    evalItems exec args last (c :: cs) = (do
      let v ← eval exec (called args c).1 (called args c).2
      evalItems exec args v cs) := by
  cases c <;> rfl

theorem evalClause_cons (exec : Exec) (args : List Value) (c : Code) (cs : List Code) :
    evalClause exec args (c :: cs) = (do
      let v ← eval exec (called args c).1 (called args c).2
      if v.truthy then some <$> evalItems exec args v cs else pure none) := by
  cases c <;> rfl

end Play

end Fable
