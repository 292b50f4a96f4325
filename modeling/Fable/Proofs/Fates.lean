import Fable.Proofs.Scripted
import Fable.Proofs.Grammar
import Fable.Proofs.Rooms

namespace Fable

theorem Resolver.Meant.hashable {g : Game} {walkVerb : Value} {c : Command}
    (hc : Meant g walkVerb c) (hg : g.store.Reachable) :
    c.direct.hashable ∧ c.indirect.hashable := by
  constructor
  · rcases hc.direct with hnone | hdefined | ⟨word, d, -, hd⟩
    · rw [hnone]; rfl
    · exact Value.hashable_of_isText (hg.isText_of_isDefined hdefined)
    · rw [hd]; rfl
  · rcases hc.indirect with hnone | hdefined
    · rw [hnone]; rfl
    · exact Value.hashable_of_isText (hg.isText_of_isDefined hdefined)

namespace Game

structure Abides (g h : Game) : Prop where
  housed : g.Housed → h.Housed
  legible : g.Legible → h.Legible

instance : IsTrans Game Abides where
  trans _ _ _ hgh hhk :=
    ⟨fun hg ↦ hhk.housed (hgh.housed hg), fun hg ↦ hhk.legible (hgh.legible hg)⟩

variable {g h : Game}

theorem Abides.refl (g : Game) : g.Abides g := ⟨id, id⟩

theorem Steps.abides (hs : Steps g h) : g.Abides h := ⟨hs.housed, hs.legible⟩

theorem Told.abides (ht : g.Told h) : g.Abides h := Steps.abides (.single (.tells ht))

theorem abides_counted (g : Game) (v : Value) : g.Abides (g.assign "MOVES" v) where
  housed hg := ⟨hg.toLocated.assign "MOVES" v (by decide) (by decide), hg.verbs, hg.actionless⟩
  legible hg := ⟨hg.death, hg.victory, hg.records⟩

end Game

namespace Play

open Runs Game

variable {walkVerb : Value} {echo : Bool} {line : String} {lines : List String}
variable {g h k : Game} {c : Command} {r : Reason}

section

variable (walkVerb : Value) (echo : Bool)

def commandRead? (line : String) (g : Game) : Option (Game × Command) :=
  match showRead (.script echo) (some (.text line)) g with
  | .error .. => none
  | .ok _ k =>
    if (Text.trim line).isEmpty then none
    else match resolve walkVerb (Text.trim line) k with
      | .ok (some c) m => some (m, c)
      | _ => none

/-- The commands that are performed in a run of the lines, each with the game in which it is. -/
def performed (lines : List String) (g : Game) : List (Game × Command) :=
  (readings (resolve walkVerb) (.script echo) lines g).filterMap fun (line, k) ↦
    commandRead? walkVerb echo line k

end

theorem performed_of_pass_ok (hlimit : atLimit g = .ok false g)
    (hpass : pass exec (resolve walkVerb) (.script echo) (.text line) g = .ok () k) :
    performed walkVerb echo (line :: lines) g =
      (commandRead? walkVerb echo line g).toList ++ performed walkVerb echo lines k := by
  simp only [performed, readings, hlimit, hpass, List.filterMap_cons]
  cases commandRead? walkVerb echo line g <;> rfl

theorem performed_of_pass_error {e : Exit} (hlimit : atLimit g = .ok false g)
    (hpass : pass exec (resolve walkVerb) (.script echo) (.text line) g = .error e k) :
    performed walkVerb echo (line :: lines) g = (commandRead? walkVerb echo line g).toList := by
  simp only [performed, readings, hlimit, hpass, List.filterMap_cons, List.filterMap_nil]
  cases commandRead? walkVerb echo line g <;> rfl

/-- A line is not read, or it is the last one, or it is passed. -/
theorem performed_cons (line : String) (lines : List String) (g : Game) :
    performed walkVerb echo (line :: lines) g = [] ∨ atLimit g = .ok false g ∧
      ((∃ e k, pass exec (resolve walkVerb) (.script echo) (.text line) g = .error e k ∧
          performed walkVerb echo (line :: lines) g = (commandRead? walkVerb echo line g).toList) ∨
        ∃ k, pass exec (resolve walkVerb) (.script echo) (.text line) g = .ok () k ∧
          performed walkVerb echo (line :: lines) g =
            (commandRead? walkVerb echo line g).toList ++ performed walkVerb echo lines k) := by
  by_cases hlimit : ∃ k, atLimit g = .ok false k
  · obtain ⟨u, hlimit⟩ := hlimit
    obtain rfl := of_atLimit hlimit
    cases hpass : pass exec (resolve walkVerb) (.script echo) (.text line) u with
    | ok _ k => exact .inr ⟨hlimit, .inr ⟨k, rfl, performed_of_pass_ok hlimit hpass⟩⟩
    | error e k => exact .inr ⟨hlimit, .inl ⟨e, k, rfl, performed_of_pass_error hlimit hpass⟩⟩
  · left
    rw [performed, readings]
    split
    · next hread _ => exact absurd ⟨_, hread⟩ hlimit
    · next hread _ => exact absurd ⟨_, hread⟩ hlimit
    · rfl

theorem of_commandRead? (hc : commandRead? walkVerb echo line g = some (k, c)) :
    showRead (.script echo) (some (.text line)) g = .ok () k ∧ (Text.trim line).isEmpty = false ∧
      Resolver.resolve k walkVerb (Text.trim line) = .ok (some c) := by
  unfold commandRead? at hc
  split at hc
  · cases hc
  next u hread =>
  split at hc
  · cases hc
  next hblank =>
  split at hc
  · next hresolve =>
    cases hc
    rw [resolve, get_bind] at hresolve
    obtain rfl := of_lift hresolve
    exact ⟨hread, Bool.eq_false_iff.2 hblank, ok_of_lift hresolve⟩
  · cases hc

/-- A command that fails or ends the game is the last thing that happens. -/
theorem pass_of_command_error {e : Exit} (hc : commandRead? walkVerb echo line g = some (k, c))
    (hperform : perform exec c.verb c.direct c.indirect k = .error e h) :
    pass exec (resolve walkVerb) (.script echo) (.text line) g = .error e h := by
  obtain ⟨hread, hblank, hresolve⟩ := of_commandRead? hc
  have hobeys : Obeys Unsignalled (perform exec c.verb c.direct c.indirect) := .perform _ _ _
  have hresolved : resolve walkVerb (Text.trim line) k = .ok (some c) k := by
    rw [resolve, get_bind, hresolve]
    rfl
  have hturn : turn exec (resolve walkVerb) (Text.trim line) k = .error e h := by
    rw [turn, tryCatch_of_error
      ((bind_of_ok hresolved _).trans (bind_of_error (discard_of_error hperform) _))]
    cases e with
    | signal s => exact absurd rfl (hobeys.ne_signal hperform s)
    | fault f => rfl
    | ended r => rfl
  rw [pass, bind_of_ok hread]
  simp only [Value.string?, hblank]
  exact bind_of_error hturn _

theorem turns_of_command_error {e : Exit} (hc : (k, c) ∈ performed walkVerb echo lines g)
    (hperform : perform exec c.verb c.direct c.indirect k = .error e h) :
    turns exec (resolve walkVerb) (.script echo) (lines.map .text) g = .error e h := by
  induction lines generalizing g with
  | nil => cases hc
  | cons line lines ih =>
    rw [List.map_cons, turns_cons _ _ _ rfl]
    rcases performed_cons line lines g with hnone | ⟨hlimit, ⟨_, _, -, hlast⟩ | ⟨v, hpass, hmore⟩⟩
    · rw [hnone] at hc
      cases hc
    · rw [hlast, Option.mem_toList] at hc
      rw [bind_of_ok hlimit, if_neg Bool.false_ne_true,
        bind_of_error (pass_of_command_error hc hperform)]
    · rw [hmore, List.mem_append, Option.mem_toList] at hc
      rw [bind_of_ok hlimit, if_neg Bool.false_ne_true]
      rcases hc with hc | hc
      · cases hpass.symm.trans (pass_of_command_error hc hperform)
      · rw [bind_of_ok hpass]
        exact ih hc

theorem last_of_command_error {e : Exit} {before after : List (Game × Command)}
    (hc : performed walkVerb echo lines g = before ++ (k, c) :: after)
    (hperform : perform exec c.verb c.direct c.indirect k = .error e h) : after = [] := by
  induction lines generalizing g before with
  | nil => simp [performed, readings] at hc
  | cons line lines ih =>
    rcases performed_cons line lines g with hnone | ⟨-, ⟨_, _, -, hlast⟩ | ⟨v, hpass, hmore⟩⟩
    · rw [hnone] at hc
      simp at hc
    · have hlength := congrArg List.length (hlast.symm.trans hc)
      rw [List.length_append, List.length_cons] at hlength
      have hone := Option.length_toList_le (o := commandRead? walkVerb echo line g)
      exact List.length_eq_zero_iff.1 (by omega)
    · rw [hmore] at hc
      cases hread : commandRead? walkVerb echo line g with
      | none =>
        rw [hread] at hc
        exact ih hc
      | some x =>
        rw [hread, Option.toList_some, List.singleton_append] at hc
        cases before with
        | nil =>
          obtain ⟨rfl, -⟩ := List.cons.inj hc
          cases hpass.symm.trans (pass_of_command_error hread hperform)
        | cons y before => exact ih (List.cons.inj hc).2

theorem last_of_turns_ends
    (hends : Ends (turns exec (resolve walkVerb) (.script echo) (lines.map .text)) g r h) :
    ∃ k c, (performed walkVerb echo lines g).getLast? = some (k, c) ∧
      Ends (perform exec c.verb c.direct c.indirect) k r h := by
  induction lines generalizing g with
  | nil => exact absurd hends (Plain.turns_nil exec (resolve walkVerb) (.script echo)).not_ends
  | cons line lines ih =>
    obtain ⟨-, hlimit, hpass | ⟨v, hpass, hrest⟩⟩ := ends_turns_cons.1 hends
    · obtain ⟨_, u, ⟨⟩, hblank, hread, hturn⟩ := ends_pass.1 hpass
      obtain hresolve | ⟨c, v, hresolve, hperform⟩ := ends_turn.1 hturn
      · exact absurd hresolve (Plain.resolve _ _).not_ends
      · have hcommand : commandRead? walkVerb echo line g = some (v, c) := by
          simp [commandRead?, hread, hblank, hresolve]
        rw [performed_of_pass_error hlimit hpass, hcommand]
        exact ⟨v, c, rfl, hperform⟩
    · obtain ⟨k, c, hlast, hperform⟩ := ih hrest
      refine ⟨k, c, ?_, hperform⟩
      rw [performed_of_pass_ok hlimit hpass, List.getLast?_append, hlast]
      rfl

theorem abides_of_pass_ok (hg : g.Housed)
    (hpass : pass exec (resolve walkVerb) (.script echo) (.text line) g = .ok () k) :
    g.Abides k := by
  obtain ⟨u, hread, hrest⟩ := of_pass_ok hpass
  have hu : g.Abides u := (Quiet.told_of_ok (.showRead _) hread).abides
  rcases hrest with ⟨-, rfl⟩ | ⟨-, counts, v, hturn, hrest⟩
  · exact hu
  · have hquiet : Quiet (resolve walkVerb (Text.trim line)) := .get_bind fun _ ↦ .lift _
    have hsteps := turn_steps hquiet (hu.housed hg).verbs (hu.housed hg).actionless
    rw [after_of_ok hturn] at hsteps
    have hgv : g.Abides v := IsTrans.trans _ _ _ hu hsteps.abides
    cases counts with
    | false =>
      cases hrest
      exact hgv
    | true =>
      have hcount : countMove v = .ok () k := hrest
      rw [countMove, get_bind] at hcount
      obtain ⟨total, w, hsum, hset⟩ := of_bind_ok hcount
      cases hset
      have hw : v.Abides w := (Quiet.told_of_ok (.sum _ _) hsum).abides
      exact IsTrans.trans _ _ _ hgv (IsTrans.trans _ _ _ hw (abides_counted w total))

/-- Every command that is performed finds the game in order. -/
theorem of_mem_performed (hg : g.Housed) (hc : (k, c) ∈ performed walkVerb echo lines g) :
    g.Abides k ∧ c.direct.hashable ∧ c.indirect.hashable := by
  induction lines generalizing g with
  | nil => cases hc
  | cons line lines ih =>
    have hfirst (hread : commandRead? walkVerb echo line g = some (k, c)) :
        g.Abides k ∧ c.direct.hashable ∧ c.indirect.hashable := by
      obtain ⟨hshow, -, hresolve⟩ := of_commandRead? hread
      have hk : g.Abides k := (Quiet.told_of_ok (.showRead _) hshow).abides
      exact ⟨hk, (Resolver.meant_of_resolve hresolve).hashable (hk.housed hg).reachable⟩
    rcases performed_cons line lines g with hnone | ⟨-, ⟨_, _, -, hlast⟩ | ⟨v, hpass, hmore⟩⟩
    · rw [hnone] at hc
      cases hc
    · rw [hlast, Option.mem_toList] at hc
      exact hfirst hc
    · rw [hmore, List.mem_append, Option.mem_toList] at hc
      rcases hc with hc | hc
      · exact hfirst hc
      · have hv := abides_of_pass_ok hg hpass
        obtain ⟨hk, hhash⟩ := ih (hv.housed hg) hc
        exact ⟨IsTrans.trans _ _ _ hv hk, hhash⟩

def returned? (p : Play Value) (g : Game) : Option Reason :=
  match p g with
  | .ok (.outcome reason ..) _ => some reason
  | _ => none

theorem session_of_start_none (lines : List Value) (g : Game) :
    session exec (resolve walkVerb) (.script echo) lines .none g =
      turns exec (resolve walkVerb) (.script echo) lines g := rfl

theorem returned?_of_command_error {e : Exit} (hc : (k, c) ∈ performed walkVerb echo lines g)
    (hperform : perform exec c.verb c.direct c.indirect k = .error e h) :
    returned? (scripted walkVerb echo (lines.map .text) .none) g = match e with
      | .ended reason => some reason
      | _ => none := by
  rw [returned?, scripted, run_eq, session_of_start_none, turns_of_command_error hc hperform]
  cases e <;> rfl

/-- A run does not return that the player died, or that the game is won, unless a command ends it
so. -/
theorem last_of_returned? (hreason : r = .died ∨ r = .won)
    (hrun : returned? (scripted walkVerb echo (lines.map .text) .none) g = some r) :
    ∃ k c, (performed walkVerb echo lines g).getLast? = some (k, c) ∧
      ∃ h, Ends (perform exec c.verb c.direct c.indirect) k r h := by
  rw [returned?] at hrun
  split at hrun
  · next hplayed =>
    cases hrun
    obtain ⟨reason, k, hresult, -, ⟨-, hother⟩ | hs⟩ := session_of_run_ok hplayed
    · cases hresult
      rcases hreason with rfl | rfl <;> rcases hother with h | h <;> cases h
    · cases hresult
      obtain ⟨k, c, hlast, hends⟩ := last_of_turns_ends hs
      exact ⟨k, c, hlast, _, hends⟩
  · cases hrun

/-- The last command that is performed in a run of the lines is one of these. -/
def LastIs (P : Game → Command → Prop) (walkVerb : Value) (echo : Bool)
    (lines : List String) (g : Game) : Prop :=
  ∃ k c, (performed walkVerb echo lines g).getLast? = some (k, c) ∧ P k c

theorem LastIs.mem {P : Game → Command → Prop} (hlast : LastIs P walkVerb echo lines g) :
    ∃ k c, (k, c) ∈ performed walkVerb echo lines g ∧ P k c := by
  obtain ⟨k, c, hlast, hc⟩ := hlast
  exact ⟨k, c, List.mem_of_getLast? hlast, hc⟩

theorem lastIs_of_returned? (hg : g.Housed) (hreason : r = .died ∨ r = .won)
    (hrun : returned? (scripted walkVerb echo (lines.map .text) .none) g = some r) :
    LastIs (·.Meets · r) walkVerb echo lines g := by
  obtain ⟨k, c, hlast, h, hends⟩ := last_of_returned? hreason hrun
  obtain ⟨hk, hd, hi⟩ := of_mem_performed hg (List.mem_of_getLast? hlast)
  rcases reason_of_perform_ends (hk.housed hg) hd hi hends with ⟨rfl, -⟩ | hmeets
  · rcases hreason with h | h <;> cases h
  · exact ⟨k, c, hlast, hmeets⟩

theorem eq_of_returned? (hg : g.Housed) (hlast : LastIs (·.Meets · r) walkVerb echo lines g)
    {q : Reason} (hrun : returned? (scripted walkVerb echo (lines.map .text) .none) g = some q) :
    q = r := by
  obtain ⟨k, c, hmem, hmeets⟩ := hlast.mem
  obtain ⟨hk, hd, hi⟩ := of_mem_performed hg hmem
  obtain ⟨e, h, herror⟩ := exists_perform_error (hk.housed hg) hd hi hmeets
  rw [returned?_of_command_error hmem herror] at hrun
  cases e with
  | fault f => cases hrun
  | signal s => cases hrun
  | ended q' =>
    cases hrun
    exact reason_of_meets hmeets (hk.housed hg) hd hi herror

theorem returned?_of_lastIs (hg : g.Housed) (hlegible : g.Legible)
    (hlast : LastIs (·.Meets · r) walkVerb echo lines g) :
    returned? (scripted walkVerb echo (lines.map .text) .none) g = some r := by
  obtain ⟨k, c, hmem, hmeets⟩ := hlast.mem
  obtain ⟨hk, hd, hi⟩ := of_mem_performed hg hmem
  obtain ⟨h, hends⟩ := exists_perform_ends (hk.housed hg) (hk.legible hlegible) hd hi hmeets
  exact returned?_of_command_error hmem hends

/-- In a game of standard verbs, whose objects have no actions and whose player is where the globals
say, a command that enters a room moves the player there. A run that returns was ended by death, or
won, exactly if its last command entered a deadly room, or one where the game is won, and no command
is performed after such a one. If the descriptions and the banners are texts, the run does return
then. -/
theorem rooms_decide_how_runs_end (hg : g.Located) (hv : g.OnlyVerbs)
    (ha : g.store.Actionless) (walkVerb : Value) (echo : Bool) (lines : List String) :
    (∀ k c room, (k, c) ∈ performed walkVerb echo lines g → k.Enters c room →
      (k.afterCommands [c]).global "HERE" = room ∧
        Value.same room ((k.afterCommands [c]).store.parent (k.global "WINNER"))) ∧
    (∀ reason, returned? (scripted walkVerb echo (lines.map .text) .none) g = some reason →
      (reason = .died ↔ LastIs (·.Meets · .died) walkVerb echo lines g) ∧
      (reason = .won ↔ LastIs (·.Meets · .won) walkVerb echo lines g)) ∧
    (∀ before k c after fate, performed walkVerb echo lines g = before ++ (k, c) :: after →
      k.Meets c fate →
      after = []) ∧
    (g.Legible →
      (returned? (scripted walkVerb echo (lines.map .text) .none) g = some .died ↔
        LastIs (·.Meets · .died) walkVerb echo lines g) ∧
      (returned? (scripted walkVerb echo (lines.map .text) .none) g = some .won ↔
        LastIs (·.Meets · .won) walkVerb echo lines g)) := by
  have hhoused : g.Housed := ⟨hg, hv, ha⟩
  refine ⟨?_, ?_, ?_, ?_⟩
  · intro k c room hmem henters
    obtain ⟨hk, hd, hi⟩ := of_mem_performed hhoused hmem
    exact here_of_enters (hk.housed hhoused) henters hd hi
  · intro reason hrun
    have hiff (fate : Reason) (hfate : fate = .died ∨ fate = .won) :
        reason = fate ↔ LastIs (·.Meets · fate) walkVerb echo lines g := by
      constructor
      · rintro rfl
        exact lastIs_of_returned? hhoused hfate hrun
      · exact fun hlast ↦ eq_of_returned? hhoused hlast hrun
    exact ⟨hiff .died (.inl rfl), hiff .won (.inr rfl)⟩
  · intro before k c after fate hperformed hmeets
    have hmem : (k, c) ∈ performed walkVerb echo lines g := by simp [hperformed]
    obtain ⟨hk, hd, hi⟩ := of_mem_performed hhoused hmem
    obtain ⟨e, h, herror⟩ := exists_perform_error (hk.housed hhoused) hd hi hmeets
    exact last_of_command_error hperformed herror
  · intro hlegible
    exact ⟨⟨lastIs_of_returned? hhoused (.inl rfl), returned?_of_lastIs hhoused hlegible⟩,
      lastIs_of_returned? hhoused (.inr rfl), returned?_of_lastIs hhoused hlegible⟩

def bareCoast : Game where
  store := .history [
    .define (.text "DUNE")
      { properties := .dict [(.text "NORTH", .text "CLIFF"), (.text "EAST", .text "SHORE")] },
    .define (.text "CLIFF")
      { properties := .dict [(.text "DEATH", .text "You fall."), (.text "VICTORY", .bool true)] },
    .define (.text "SHORE") { properties := .dict [(.text "VICTORY", .bool true)] },
    .define (.text "PLAYER") { parent := .text "DUNE" }]
  globals := [(.text "WINNER", .text "PLAYER"), (.text "HERE", .text "DUNE")]

def coast : Game := after installStandardVerbs bareCoast

theorem fates_on_the_coast :
    coast.Located ∧ coast.OnlyVerbs ∧ coast.store.Actionless ∧ coast.Legible ∧
      returned? (scripted (.text "WALK") true (["look", "north", "look"].map .text) .none) coast =
        some .died ∧
      LastIs (·.Meets · .died) (.text "WALK") true ["look", "north", "look"] coast ∧
      returned? (scripted (.text "WALK") true (["south", "east"].map .text) .none) coast =
        some .won ∧
      LastIs (·.Meets · .won) (.text "WALK") true ["south", "east"] coast := by
  have hstore : coast.store = bareCoast.store := store_installed bareCoast
  have hreachable : coast.store.Reachable := by
    rw [hstore]
    refine Store.reachable_history ?_
    simp only [List.mem_cons, List.not_mem_nil, or_false]
    rintro c (rfl | rfl | rfl | rfl)
    · exact ⟨rfl, Value.isPlace_none, ⟨_, rfl⟩, ⟨_, rfl⟩⟩
    · exact ⟨rfl, Value.isPlace_none, ⟨_, rfl⟩, ⟨_, rfl⟩⟩
    · exact ⟨rfl, Value.isPlace_none, ⟨_, rfl⟩, ⟨_, rfl⟩⟩
    · exact ⟨rfl, .of_isText rfl, ⟨_, rfl⟩, ⟨_, rfl⟩⟩
  have hlocated : coast.Located :=
    ⟨hreachable, by decide +kernel, by decide +kernel, by decide +kernel⟩
  have hverbs : coast.OnlyVerbs := onlyVerbs_installed fun _ _ hr ↦ nomatch hr
  have hactions : coast.store.Actionless := by decide +kernel
  have hrecords : ∀ e ∈ coast.store.records, e.2.ldesc.isNone ∧ e.2.fdesc.isNone := by
    decide +kernel
  have hlegible : coast.Legible := by
    refine ⟨by decide +kernel, by decide +kernel, fun e he ↦ ?_⟩
    exact ⟨.inl (hrecords e he).1, .inl (hrecords e he).2⟩
  have hdied :
      returned? (scripted (.text "WALK") true (["look", "north", "look"].map .text) .none) coast =
      some .died := by decide +kernel
  have hwon : returned? (scripted (.text "WALK") true (["south", "east"].map .text) .none) coast =
      some .won := by
    decide +kernel
  obtain ⟨-, -, -, hnorth⟩ := rooms_decide_how_runs_end hlocated hverbs hactions (.text "WALK") true
    ["look", "north", "look"]
  obtain ⟨-, -, -, heast⟩ :=
    rooms_decide_how_runs_end hlocated hverbs hactions (.text "WALK") true ["south", "east"]
  exact ⟨hlocated, hverbs, hactions, hlegible, hdied, (hnorth hlegible).1.1 hdied, hwon,
    (heast hlegible).2.1 hwon⟩

end Play

end Fable
