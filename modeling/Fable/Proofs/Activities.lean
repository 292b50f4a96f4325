import Fable.Proofs.Endings
import Mathlib.Logic.Relation

namespace Fable

inductive Finale
  | death (message : Value)
  | victory
  | farewell

namespace Finale

def reason : Finale → Reason
  | death _ => .died
  | victory => .won
  | farewell => .quit

def play {α : Type} : Finale → Play α
  | death message => Play.die message
  | victory => Play.win
  | farewell => Play.endGame .quit

end Finale

structure Mode where
  source : Play.Source
  walkVerb : Value
  resolver : Option Code

def Mode.resolve (m : Mode) (depth : Nat) : String → Play (Option Command) :=
  Play.evalResolver (Play.execWithin depth) m.walkVerb m.resolver

inductive Activity
  | finale (f : Finale)
  | routine (r : Value) (args : List Value)
  | code (args : List Value) (c : Code)
  | codes (args : List Value) (cs : List Code)
  | entries (args : List Value) (es : List (String × Code))
  | block (args : List Value) (last : Value) (cs : List Code)
  | items (args : List Value) (last : Value) (cs : List Code)
  | clause (args : List Value) (cs : List Code)
  | clauses (args : List Value) (css : List (List Code))
  | operation (args : List Value) (o : Op) (vs : List Value)
  | verb (v : StandardVerb)
  | arrival (room : Value)
  | call (name : Value) (args : List Value)
  | message (object m : Value)
  | goTo (room : Value)
  | offers (tag direct indirect : Value) (stages : List Stage)
  | command (verb direct indirect : Value)
  | resolution (m : Mode) (line : String)
  | turn (m : Mode) (line : String)
  | pass (m : Mode) (line : Value)
  | turns (m : Mode) (lines : List Value)
  | enter (start : Value)
  | session (m : Mode) (lines : List Value) (start : Value)

namespace Activity

def Result : Activity → Type
  | finale _ | routine .. | code .. | block .. | items .. | clauses ..
  | operation .. | verb _ => Value
  | call .. | message .. | goTo _ => Value
  | codes .. => List Value
  | entries .. => Table Value
  | clause .. => Option Value
  | resolution .. => Option Command
  | offers .. | command .. | turn .. => Bool
  | arrival _ | pass .. | enter _ => Unit
  | turns .. | session .. => Reason

def play (depth : Nat) : (a : Activity) → Play a.Result
  | finale f => f.play
  | routine r args => Play.execWithin depth r args
  | code args c => Play.eval (Play.execWithin depth) args c
  | codes args cs => Play.evalAll (Play.execWithin depth) args cs
  | entries args es => Play.evalEntries (Play.execWithin depth) args es
  | block args last cs => Play.evalBlock (Play.execWithin depth) args last cs
  | items args last cs => Play.evalItems (Play.execWithin depth) args last cs
  | clause args cs => Play.evalClause (Play.execWithin depth) args cs
  | clauses args css => Play.evalClauses (Play.execWithin depth) args css
  | operation args o vs => Play.apply (Play.execWithin depth) args o vs
  | verb v => Play.standardVerb (Play.execWithin depth) v
  | arrival room => Play.arrive room
  | call name args => Play.call (Play.execWithin depth) name args
  | message object m => Play.applyAction (Play.execWithin depth) object m
  | goTo room => Play.goTo (Play.execWithin depth) room
  | offers tag direct indirect stages =>
    Play.anyTaken (stages.map (Stage.play (Play.execWithin depth) tag direct indirect))
  | command v direct indirect => Play.perform (Play.execWithin depth) v direct indirect
  | resolution m line => m.resolve depth line
  | turn m line => Play.turn (Play.execWithin depth) (m.resolve depth) line
  | pass m line => Play.pass (Play.execWithin depth) (m.resolve depth) m.source line
  | turns m lines => Play.turns (Play.execWithin depth) (m.resolve depth) m.source lines
  | enter start => Play.enter (Play.execWithin depth) start
  | session m lines start => Play.session (Play.execWithin depth)
    (m.resolve depth) m.source lines start

def ofOp? : Op → List Value → Option Activity
  | .invoke, r :: args => some (routine r args)
  | .call, name :: args => some (call name args)
  | .applyAction, [object, m] => some (message object m)
  | .perform, [v] => some (command v .none .none)
  | .perform, [v, direct] => some (command v direct .none)
  | .perform, [v, direct, indirect] => some (command v direct indirect)
  | .goTo, [room] => some (goTo room)
  | .die, [m] => some (finale (.death m))
  | .win, [] => some (finale .victory)
  | .quit, [] => some (finale .farewell)
  | _, _ => none

def ofDelivery : Delivery → Activity
  | .message object m => message object (.message m)
  | .routine name => call (.text name) []

end Activity

structure Scene where
  depth : Nat
  activity : Activity
  game : Game

namespace Scene

open Play Runs

def Ends (s : Scene) (r : Reason) (h : Game) : Prop := (s.activity.play s.depth).Ends s.game r h

/-- A scene that is part of another one begins, as the game stands when it does. A session inside of
code is none: the end of the game does not get out of it. -/
inductive Opens : Scene → Scene → Prop
  -- Routines
  | body {n name stamp c args g} :
      Opens ⟨n + 1, .routine (.routine ⟨name, stamp, .code c⟩) args, g⟩ ⟨n, .code args c, g⟩
  | standard {n name stamp v g} :
      Opens ⟨n + 1, .routine (.routine ⟨name, stamp, .verb v⟩) [], g⟩ ⟨n, .verb v, g⟩
  -- Code
  | list {n args cs g} : Opens ⟨n, .code args (.list cs), g⟩ ⟨n, .codes args cs, g⟩
  | dict {n args es g} : Opens ⟨n, .code args (.dict es), g⟩ ⟨n, .entries args es, g⟩
  | operands {n args o cs g} : Opens ⟨n, .code args (.op o cs), g⟩ ⟨n, .codes args cs, g⟩
  | operation {n args cs g vs k o} (h : evalAll (execWithin n) args cs g = .ok vs k) :
      Opens ⟨n, .code args (.op o cs), g⟩ ⟨n, .operation args o vs, k⟩
  | block {n args cs g} : Opens ⟨n, .code args (.block cs), g⟩ ⟨n, .block args .none cs, g⟩
  | test {n args test yes no g} :
      Opens ⟨n, .code args (.branch test yes no), g⟩ ⟨n, .code args test, g⟩
  | branch {n args test g v k yes no} (h : eval (execWithin n) args test g = .ok v k) :
      Opens ⟨n, .code args (.branch test yes no), g⟩
        ⟨n, .code args (if v.truthy then yes else no), k⟩
  | cond {n args css g} : Opens ⟨n, .code args (.cond css), g⟩ ⟨n, .clauses args css, g⟩
  | attempt {n args body g} : Opens ⟨n, .code args (.attempt body), g⟩ ⟨n, .code args body, g⟩
  | lines {n args lines start echo w resolver g} :
      Opens ⟨n, .code args (.play lines start echo w resolver), g⟩ ⟨n, .codes args lines, g⟩
  | start {n args lines g vs k start echo w resolver}
      (h : evalAll (execWithin n) args lines g = .ok vs k) :
      Opens ⟨n, .code args (.play lines start echo w resolver), g⟩ ⟨n, .code args start, k⟩
  | walkVerb {n args lines g vs k start v m echo w resolver}
      (h : evalAll (execWithin n) args lines g = .ok vs k)
      (hstart : eval (execWithin n) args start k = .ok v m) :
      Opens ⟨n, .code args (.play lines start echo w resolver), g⟩ ⟨n, .code args w, m⟩
  -- Code in a row
  | codesHead {n args c cs g} : Opens ⟨n, .codes args (c :: cs), g⟩ ⟨n, .code args c, g⟩
  | codesTail {n args c g v k cs} (h : eval (execWithin n) args c g = .ok v k) :
      Opens ⟨n, .codes args (c :: cs), g⟩ ⟨n, .codes args cs, k⟩
  | entriesHead {n args key c es g} :
      Opens ⟨n, .entries args ((key, c) :: es), g⟩ ⟨n, .code args c, g⟩
  | entriesTail {n args c g v k key es} (h : eval (execWithin n) args c g = .ok v k) :
      Opens ⟨n, .entries args ((key, c) :: es), g⟩ ⟨n, .entries args es, k⟩
  | blockHead {n args last c cs g} : Opens ⟨n, .block args last (c :: cs), g⟩ ⟨n, .code args c, g⟩
  | blockTail {n args c g v k last cs} (h : eval (execWithin n) args c g = .ok v k) :
      Opens ⟨n, .block args last (c :: cs), g⟩ ⟨n, .block args v cs, k⟩
  | itemsHead {n args last c cs g} :
      Opens ⟨n, .items args last (c :: cs), g⟩ ⟨n, .code (called args c).1 (called args c).2, g⟩
  | itemsTail {n args c g v k last cs}
      (h : eval (execWithin n) (called args c).1 (called args c).2 g = .ok v k) :
      Opens ⟨n, .items args last (c :: cs), g⟩ ⟨n, .items args v cs, k⟩
  | clauseHead {n args c cs g} :
      Opens ⟨n, .clause args (c :: cs), g⟩ ⟨n, .code (called args c).1 (called args c).2, g⟩
  | clauseItems {n args c g v k cs}
      (h : eval (execWithin n) (called args c).1 (called args c).2 g = .ok v k) (hv : v.truthy) :
      Opens ⟨n, .clause args (c :: cs), g⟩ ⟨n, .items args v cs, k⟩
  | clausesHead {n args cs css g} : Opens ⟨n, .clauses args (cs :: css), g⟩ ⟨n, .clause args cs, g⟩
  | clausesTail {n args cs g k css} (h : evalClause (execWithin n) args cs g = .ok none k) :
      Opens ⟨n, .clauses args (cs :: css), g⟩ ⟨n, .clauses args css, k⟩
  -- Operations and verbs
  | lively {o vs a n args g} (h : Activity.ofOp? o vs = some a) :
      Opens ⟨n, .operation args o vs, g⟩ ⟨n, a, g⟩
  | quit {n g} : Opens ⟨n, .verb .quit, g⟩ ⟨n, .finale .farewell, g⟩
  | look {n : Nat} {g k : Game} (h : tell [desc, g.global "HERE", newline] g = .ok () k) :
      Opens ⟨n, .verb .look, g⟩ ⟨n, .message (g.global "HERE") (.message .look), k⟩
  | walk {g room k n} (h : setOut g = .ok room k) : Opens ⟨n, .verb .walk, g⟩ ⟨n, .goTo room, k⟩
  | arrival {g room k n handled m o} (h : setOut g = .ok room k)
      (hgo : goTo (execWithin n) room k = .ok handled m)
      (hhere : Value.alike (m.global "HERE") room)
      (hroom : describeRoom handled.truthy m = .ok () o) :
      Opens ⟨n, .verb .walk, g⟩ ⟨n, .arrival room, o⟩
  | deadly {g room n} (h : (g.store.property room (.text "DEATH") .none).truthy) :
      Opens ⟨n, .arrival room, g⟩
        ⟨n, .finale (.death (g.store.property room (.text "DEATH") .none)), g⟩
  | winning {g room n} (h : (g.store.property room (.text "DEATH") .none).truthy = false)
      (hwin : (g.store.property room (.text "VICTORY") .none).truthy) :
      Opens ⟨n, .arrival room, g⟩ ⟨n, .finale .victory, g⟩
  -- Calls and messages
  | call {name g r n args} (hname : name.hashable) (hr : g.routines.find? name = some r)
      (hsome : r.isNone = false) :
      Opens ⟨n, .call name args, g⟩ ⟨n, .routine r args, g⟩
  | named {object g r n m} (hobject : object.hashable) (hr : g.store.find? object = some r)
      (hname : r.action.isText) :
      Opens ⟨n, .message object m, g⟩ ⟨n, .call r.action [m], g⟩
  | handler {object g r n m} (hobject : object.hashable) (hr : g.store.find? object = some r)
      (hsome : r.action.isNone = false) (hname : r.action.isText = false) :
      Opens ⟨n, .message object m, g⟩ ⟨n, .routine r.action [m], g⟩
  | entering {g room k n} (h : move (g.global "WINNER") room g = .ok true k) :
      Opens ⟨n, .goTo room, g⟩ ⟨n, .message room (.message .look), k.assign "HERE" room⟩
  -- Commands
  | delivery {stage tag direct indirect g d n stages}
      (h : stage.delivery? tag direct indirect g = .ok (some d)) :
      Opens ⟨n, .offers tag direct indirect (stage :: stages), g⟩ ⟨n, .ofDelivery d, g⟩
  | later {stage n tag direct indirect g v k stages}
      (h : stage.play (execWithin n) tag direct indirect g = .ok v k) (hv : v.truthy = false) :
      Opens ⟨n, .offers tag direct indirect (stage :: stages), g⟩
        ⟨n, .offers tag direct indirect stages, k⟩
  | offers {verb n direct indirect g} (hverb : verb.hashable) :
      Opens ⟨n, .command verb direct indirect, g⟩
        ⟨n, .offers (g.verbTag verb) direct indirect Stage.all,
          g.asked (g.verbTag verb) direct indirect⟩
  | after {verb n g direct indirect handled k} (hverb : verb.hashable)
      (h : anyTaken (Stage.all.map (Stage.play (execWithin n) (g.verbTag verb) direct indirect))
        (g.asked (g.verbTag verb) direct indirect) = .ok handled k) :
      Opens ⟨n, .command verb direct indirect, g⟩
        ⟨n, .message (k.global "HERE") (.message .after), k⟩
  -- Sessions
  | resolver {n source w c line g} :
      Opens ⟨n, .resolution ⟨source, w, some c⟩ line, g⟩ ⟨n, .code [.text line] c, g⟩
  | resolution {n m line g} : Opens ⟨n, .turn m line, g⟩ ⟨n, .resolution m line, g⟩
  | command {m n line g c k} (h : m.resolve n line g = .ok (some c) k) :
      Opens ⟨n, .turn m line, g⟩ ⟨n, .command c.verb c.direct c.indirect, k⟩
  | turn {line s m g k n} (hline : line.string? = some s) (hblank : (Text.trim s).isEmpty = false)
      (h : showRead m.source (some line) g = .ok () k) :
      Opens ⟨n, .pass m line, g⟩ ⟨n, .turn m (Text.trim s), k⟩
  | pass {line g n m lines} (hline : line.isNone = false) (h : atLimit g = .ok false g) :
      Opens ⟨n, .turns m (line :: lines), g⟩ ⟨n, .pass m line, g⟩
  | turns {line g n m k lines} (hline : line.isNone = false) (h : atLimit g = .ok false g)
      (hpass : Play.pass (execWithin n) (m.resolve n) m.source line g = .ok () k) :
      Opens ⟨n, .turns m (line :: lines), g⟩ ⟨n, .turns m lines, k⟩
  | goTo {start n g} (hstart : start.isNone = false) :
      Opens ⟨n, .enter start, g⟩ ⟨n, .goTo start, g⟩
  | enter {n m lines start g} : Opens ⟨n, .session m lines start, g⟩ ⟨n, .enter start, g⟩
  | session {n start g k m lines} (h : Play.enter (execWithin n) start g = .ok () k) :
      Opens ⟨n, .session m lines start, g⟩ ⟨n, .turns m lines, k⟩

end Scene

namespace Activity

/-- With as many calls left, only activities of the same or a lower level are opened. -/
def level : Activity → Nat
  | finale _ => 0
  | routine .. | arrival _ => 1
  | call .. => 2
  | message .. => 3
  | goTo _ => 4
  | verb _ | offers .. => 5
  | command .. => 6
  | operation .. => 7
  | code .. | codes .. | entries .. | block .. | items .. | clause .. | clauses .. => 8
  | resolution .. => 9
  | turn .. => 10
  | pass .. => 11
  | turns .. | enter _ => 12
  | session .. => 13

noncomputable def size : Activity → Nat
  | code _ c => sizeOf c
  | codes _ cs | block _ _ cs | items _ _ cs | clause _ cs => sizeOf cs
  | entries _ es => sizeOf es
  | clauses _ css => sizeOf css
  | offers _ _ _ stages => stages.length
  | turns _ lines => lines.length
  | _ => 0

theorem isLively_of_ofOp? {o : Op} {vs : List Value} {a : Activity} (h : ofOp? o vs = some a) :
    o.isLively := by
  unfold ofOp? at h
  split at h
  all_goals first | rfl | cases h

theorem level_ofOp?_lt {o : Op} {vs : List Value} {a : Activity} (h : ofOp? o vs = some a) :
    a.level < 7 := by
  unfold ofOp? at h
  split at h
  all_goals cases h <;> simp [level]

theorem level_ofDelivery_lt (d : Delivery) : (ofDelivery d).level < 5 := by
  cases d with
  | message => simp [ofDelivery, level]
  | routine => simp [ofDelivery, level]

end Activity

namespace Scene

open Play Runs

noncomputable def rank (s : Scene) : Nat × Nat × Nat := (s.depth, s.activity.level, s.activity.size)

theorem sizeOf_called_lt (args : List Value) (c : Code) (cs : List Code) :
    sizeOf (called args c).2 < sizeOf (c :: cs) := by
  unfold called
  split
  · simp
    omega
  · simp
    omega

variable {s t : Scene} {r : Reason} {h : Game}

theorem Opens.rank_lt (ho : s.Opens t) :
    Prod.Lex (· < ·) (Prod.Lex (· < ·) (· < ·)) t.rank s.rank := by
  cases ho with
  | body | standard => exact .left _ _ (Nat.lt_succ_self _)
  | lively h => exact .right _ (.left _ _ (Activity.level_ofOp?_lt h))
  | delivery h => exact .right _ (.left _ _ (Activity.level_ofDelivery_lt _))
  | itemsHead | clauseHead => exact .right _ (.right _ (sizeOf_called_lt _ _ _))
  | branch h =>
    refine .right _ (.right _ ?_)
    simp only [Activity.size, Code.branch.sizeOf_spec]
    split <;> omega
  | _ => simp [rank, Prod.lex_def, Activity.level, Activity.size] <;> omega

end Scene

end Fable
