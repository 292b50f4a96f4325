import Fable.Proofs.Marks

namespace Fable

namespace Game

/-- The command comes to the routine of the standard verb, if it comes to a routine at all. -/
def Calls (g : Game) (c : Command) (v : StandardVerb) : Prop :=
  ∃ (t : String) (r : Routine), g.store.text (g.verbTag c.verb) = .ok t ∧
    g.routines.find? (.text ("V-" ++ t)) = some (.routine r) ∧ r.body = .verb v

theorem Calls.unique {g : Game} {c : Command} {v w : StandardVerb}
    (hv : g.Calls c v) (hw : g.Calls c w) :
    v = w := by
  obtain ⟨t, r, ht, hr, hbody⟩ := hv
  obtain ⟨t', r', ht', hr', hbody'⟩ := hw
  cases ht.symm.trans ht'
  cases hr.symm.trans hr'
  cases hbody.symm.trans hbody'
  rfl

structure Taken (g : Game) (x : Value) (h : Game) : Prop where
  scope : g.inScope x
  free : Value.same (g.store.parent x) (g.global "WINNER") = false
  store : ∃ s, Store.move x (g.global "WINNER") g.store = .ok () s ∧
    h.store = s.update x (·.setFlag Play.touchedFlag)
  score : ∀ m n, (g.globalOr "SCORE" (.int 0)).int? = some m →
    (g.store.property x (.text "VALUE") (.int 0)).int? = some n →
    (h.globalOr "SCORE" (.int 0)).int? =
      some (if g.store.hasFlag x Play.touchedFlag then m else m + n)

variable {g h k : Game} {x : Value}

theorem Told.taken (hg : g.Told h) (ht : h.Taken x k) : g.Taken x k where
  scope := hg.inScope x ▸ ht.scope
  free := hg.global "WINNER" ▸ hg.store ▸ ht.free
  store := hg.global "WINNER" ▸ hg.store ▸ ht.store
  score := by
    have hs := ht.score
    rwa [hg.globalOr, hg.store] at hs

theorem score_asked (g : Game) (tag direct indirect : Value) :
    (g.asked tag direct indirect).globalOr "SCORE" (.int 0) = g.globalOr "SCORE" (.int 0) :=
  globalOr_asked g tag direct indirect (by decide) (by decide) (by decide) _

theorem Taken.of_asked {tag direct indirect : Value}
    (ht : (g.asked tag direct indirect).Taken x h) :
    g.Taken x h where
  scope := by
    have hs := ht.scope
    rwa [inScope, winner_asked, here_asked] at hs
  free := winner_asked g tag direct indirect ▸ ht.free
  store := winner_asked g tag direct indirect ▸ ht.store
  score := by
    have hs := ht.score
    rwa [score_asked] at hs

/-- If nothing is taken, nothing is done but telling. -/
theorem Deed.taken (hd : Deed .take g h) : g.Told h ∨ ∃ x, g.Taken x h := by
  cases hd with
  | tells v ht => exact .inl ht
  | @takes _ _ x s hx hscore hh =>
    refine .inr ⟨x, hx.scope, hx.free, ⟨s, hx.move, hh.store⟩, fun m n hs hv ↦ ?_⟩
    rw [hh.globalOr]
    rcases hscore with htouched | ⟨f, hadd⟩
    · rw [if_pos htouched]
      exact hs
    · rw [(Store.lasts_taken hx.move).property, Value.add_of_int? hs hv] at hadd
      cases hadd
  | @takesFirst _ k m x total s hx huntouched htotal hm =>
    refine .inr ⟨x, hx.scope, hx.free, ⟨s, hx.move, hm.store⟩, fun m n hs hv ↦ ?_⟩
    rw [(Store.lasts_taken hx.move).property, Play.sum, Value.add_of_int? hs hv] at htotal
    cases htotal
    rw [globalOr_assign, if_pos rfl, huntouched]
    rfl

theorem Does.taken (hd : g.Does .take h) : g.Told h ∨ ∃ x, g.Taken x h := by
  obtain ⟨k, hk, hd⟩ := hd
  rcases hd.taken with ht | ⟨x, hx⟩
  · exact .inl (hk.trans ht)
  · exact .inr ⟨x, hk.taken hx⟩

end Game

namespace Play

open Runs Game

variable {g h : Game}

theorem after_boundary (p : Play Value) (g : Game) : after (boundary p) g = after p g := by
  cases hp : p g with
  | ok v h => rw [boundary, after_of_ok hp, after_of_ok (tryCatch_of_ok hp _)]
  | error e h =>
    rw [after, boundary, tryCatch_of_error hp, after_of_error hp]
    cases e <;> rfl

theorem after_offerVerb (hv : g.OnlyVerbs) (tag : Value) :
    g.Told (after (offerVerb Play.exec tag) g) ∨ ∃ t r v, g.store.text tag = .ok t ∧
      g.routines.find? (.text ("V-" ++ t)) = some (.routine r) ∧ r.body = .verb v ∧
      after (offerVerb Play.exec tag) g = after (standardVerb innerExec v) g := by
  cases ht : g.store.text tag with
  | error f =>
    rw [offerVerb, after_of_error (bind_of_error (text_of_error ht) _)]
    exact .inl (.refl g)
  | ok t =>
    cases hr : g.routines.find? (.text ("V-" ++ t)) with
    | none =>
      have hcontains : ¬ g.routines.contains (.text ("V-" ++ t)) := by
        simpa [Table.find?, Table.contains] using hr
      have hquiet :
          Quiet (do tell [.text "You can't do that.", newline]; pure (.bool false) : Play Value) :=
        .bind (.tell _) fun _ ↦ .pure _
      rw [offerVerb, after, bind_of_ok (text_of_ok ht), Runs.get_bind, ← after, if_neg hcontains]
      exact .inl (hquiet g)
    | some q =>
      obtain ⟨r, v, rfl, hbody⟩ := hv _ q hr
      refine .inr ⟨t, r, v, rfl, hr, hbody, ?_⟩
      rw [after, offerVerb_of_routine ht hr hbody, ← after, after_boundary]

/-- What the room hears after a command changes nothing. -/
theorem after_perform_of_hashable (hv : g.OnlyVerbs) (ha : g.store.Actionless) {verb : Value}
    (hhash : verb.hashable) (direct indirect : Value) :
    after (perform Play.exec verb direct indirect) g =
      after (offer Play.exec (g.verbTag verb) direct indirect)
        (g.asked (g.verbTag verb) direct indirect) := by
  let k := g.asked (g.verbTag verb) direct indirect
  have hsteps := offer_steps (g := k) hv ha (g.verbTag verb) direct indirect
  rw [after, perform, bind_of_ok (verbTag_of_hashable hhash g)]
  change after (offer Play.exec (g.verbTag verb) direct indirect >>= _) k = _
  cases hrun : offer Play.exec (g.verbTag verb) direct indirect k with
  | error e m => rw [after_of_error hrun, after_of_error (bind_of_error hrun _)]
  | ok v m =>
    rw [after_of_ok hrun] at hsteps ⊢
    have hroom :=
      after_applyAction Play.exec (hsteps.actionless ha) (m.global "HERE") (.message .after)
    rw [← after_discard] at hroom
    rw [after, bind_of_ok hrun, Runs.get_bind, ← after]
    exact (related_bind (R := Eq) hroom.symm fun _ _ _ ↦ rfl).symm

/-- A command comes to the routine of a standard verb, or it does nothing to the objects and the
score. -/
theorem after_perform (hv : g.OnlyVerbs) (ha : g.store.Actionless) (c : Command) :
    ((g.afterCommands [c]).store = g.store ∧
      (g.afterCommands [c]).globalOr "SCORE" (.int 0) = g.globalOr "SCORE" (.int 0)) ∨
    ∃ v, g.Calls c v ∧ g.afterCommands [c] =
      after (standardVerb innerExec v) (g.asked (g.verbTag c.verb) c.direct c.indirect) := by
  let k := g.asked (g.verbTag c.verb) c.direct c.indirect
  have hscore : k.globalOr "SCORE" (.int 0) = g.globalOr "SCORE" (.int 0) := score_asked g _ _ _
  have hone : g.afterCommands [c] = after (perform Play.exec c.verb c.direct c.indirect) g := rfl
  rw [hone]
  by_cases hhash : c.verb.hashable
  · rw [after_perform_of_hashable hv ha hhash]
    rcases after_offer (g := k) ha (g.verbTag c.verb) c.direct c.indirect with he | he
    · rw [he]
      exact .inl ⟨rfl, hscore⟩
    · rw [he]
      rcases after_offerVerb (g := k) hv (g.verbTag c.verb) with ht | ⟨t, r, v, ht, hr, hbody, hrun⟩
      · exact .inl ⟨ht.store, (ht.globalOr _ _).trans hscore⟩
      · exact .inr ⟨v, ⟨t, r, ht, hr, hbody⟩, hrun⟩
  · have htag : verbTag c.verb g = .error (.fault .mismatch) g :=
      bind_of_error (demand_of_not_hashable hhash g) _
    rw [perform, after_of_error (bind_of_error htag _)]
    exact .inl ⟨rfl, rfl⟩

end Play

namespace Game

variable {g h k : Game}

/-- The command is to take something, and it moves the object. -/
structure Takes (g : Game) (c : Command) (x : String) : Prop where
  calls : g.Calls c .take
  moved : (g.afterCommands [c]).store.parent (.text x) ≠ g.store.parent (.text x)

/-- The command is to look or to walk, and it touches the room in which the player is then. -/
structure Describes (g : Game) (c : Command) (x : String) : Prop where
  calls : g.Calls c .look ∨ g.Calls c .walk
  here : ((g.afterCommands [c]).global "HERE").string? = some x
  untouched : g.touched x = false
  touched : (g.afterCommands [c]).touched x

def During (g : Game) (commands : List Command) (P : Game → Command → Prop) : Prop :=
  ∃ before c after, commands = before ++ c :: after ∧ P (g.afterCommands before) c

theorem afterCommands_concat (g : Game) (commands : List Command) (c : Command) :
    g.afterCommands (commands ++ [c]) = (g.afterCommands commands).afterCommands [c] :=
  List.foldl_append

theorem During.append {commands : List Command} {P : Game → Command → Prop}
    (h : g.During commands P) (more : List Command) : g.During (commands ++ more) P := by
  obtain ⟨before, c, after, rfl, hP⟩ := h
  exact ⟨before, c, after ++ more, by simp, hP⟩

theorem During.last {commands : List Command} {P : Game → Command → Prop} {c : Command}
    (h : P (g.afterCommands commands) c) : g.During (commands ++ [c]) P :=
  ⟨commands, c, [], rfl, h⟩

theorem During.cases_last {commands : List Command} {P : Game → Command → Prop} {c : Command}
    (h : g.During (commands ++ [c]) P) : g.During commands P ∨ P (g.afterCommands commands) c := by
  obtain ⟨before, d, after, he, hP⟩ := h
  rcases List.eq_nil_or_concat after with rfl | ⟨after, e, rfl⟩
  · obtain ⟨rfl, hd⟩ := List.append_inj' he rfl
    cases hd
    exact .inr hP
  · have he' : commands ++ [c] = (before ++ d :: after) ++ [e] := by simpa using he
    obtain ⟨rfl, -⟩ := List.append_inj' he' rfl
    exact .inl ⟨before, d, after, rfl, hP⟩

structure Scored (g : Game) : Prop where
  verbs : g.OnlyVerbs
  actionless : g.store.Actionless
  ids : ∀ x ∈ g.store.ids, x.isText
  winner : Value.same (g.global "WINNER") (g.global "WINNER")
  valued : ∀ x, (g.store.property x (.text "VALUE") (.int 0)).int? = some (g.store.worth x)

theorem Scored.afterCommands (hg : g.Scored) (commands : List Command) :
    (g.afterCommands commands).Scored ∧ g.store.Lasts (g.afterCommands commands).store := by
  have hsteps := afterCommands_steps hg.verbs hg.actionless commands
  obtain ⟨hwinner, hlasts⟩ := hsteps.lasts
  refine ⟨⟨fun name r hr ↦ hg.verbs name r (hsteps.routines ▸ hr), hsteps.actionless hg.actionless,
    hlasts.ids ▸ hg.ids, hwinner ▸ hg.winner, fun x ↦ ?_⟩, hlasts⟩
  rw [Store.worth, hlasts.property, hg.valued x]
  rfl

theorem Scored.isText_of_isDefined (hg : g.Scored) {x : Value} (hx : g.store.isDefined x) :
    x.isText := by
  obtain ⟨r, hr⟩ := Option.isSome_iff_exists.1 hx
  obtain ⟨e, he, ha, -⟩ := Store.exists_mem_of_find? g.store hr
  have ht := hg.ids e.1 (List.mem_map_of_mem he)
  rw [Value.alike_eq_of_isText_left ht, beq_iff_eq] at ha
  rwa [Value.isText, ← ha]

theorem Taken.find? (hg : g.Scored) {x : Value} (ht : g.Taken x h) :
    ∃ a r, x.string? = some a ∧ g.store.find? (.text a) = some r ∧
      h.store.find? (.text a) =
        some (Record.setFlag { r with parent := g.global "WINNER" } Play.touchedFlag) ∧
      ∀ b, b ≠ a → h.store.find? (.text b) = g.store.find? (.text b) := by
  have hd := isDefined_of_inScope ht.scope
  have hx := hg.isText_of_isDefined hd
  obtain ⟨a, ha⟩ := Value.isText_iff.1 hx
  obtain ⟨s, hmove, hstore⟩ := ht.store
  obtain ⟨r, hr⟩ := Option.isSome_iff_exists.1 hd
  obtain rfl := Store.eq_transfer_of_move hr hmove
  refine ⟨a, r, ha, by rw [← Store.find?_of_string? _ ha, hr], ?_, fun b hb ↦ ?_⟩
  · rw [hstore, Store.find?_eq_lookup? _ rfl, Store.lookup?_update hx rfl, if_pos (by rw [ha]; rfl),
      Store.lookup?_transfer hx rfl hr, if_pos (by rw [ha]; rfl)]
    rfl
  · have hne : x.string? ≠ (Value.text b).string? := by
      rw [ha]
      exact fun he ↦ hb (Option.some.inj he).symm
    rw [hstore, Store.find?_update_of_ne rfl hne]
    exact Store.find?_update_of_ne (s := g.store) rfl hne fun r ↦
      { r with parent := g.global "WINNER" }

/-- One object is moved and touched, and nothing else is. -/
theorem Taken.moves (hg : g.Scored) {x : Value} (ht : g.Taken x h) :
    ∃ a, x.string? = some a ∧ h.touched a ∧ h.store.parent (.text a) ≠ g.store.parent (.text a) ∧
      ∀ b, b ≠ a → h.touched b = g.touched b ∧
        h.store.parent (.text b) = g.store.parent (.text b) := by
  obtain ⟨a, r, ha, hr, hra, hb⟩ := ht.find? hg
  refine ⟨a, ha, ?_, ?_, fun b hne ↦ ⟨?_, ?_⟩⟩
  · rw [touched, Store.hasFlag, hra]
    exact Record.hasFlag_setFlag_self _ rfl
  · intro he
    have hfree := ht.free
    have hparent : g.store.parent x = g.global "WINNER" := by
      rw [Store.parent_congr _ (Store.find?_of_string? _ ha), ← he, Store.parent, hra]
      rfl
    rw [hparent, hg.winner] at hfree
    cases hfree
  · rw [touched, touched, Store.hasFlag, Store.hasFlag, hb b hne]
  · rw [Store.parent, Store.parent, hb b hne]

/-- Everything that a command can do to the score and to what is touched. -/
theorem Scored.command_cases (hg : g.Scored) (c : Command) :
    (g.Visited (g.afterCommands [c]) ∧ (g.Calls c .look ∨ g.Calls c .walk)) ∨
    (g.Unmarked (g.afterCommands [c]) ∧ ∀ x, ¬ g.Takes c x) ∨
    ∃ x, g.Calls c .take ∧ g.Taken x (g.afterCommands [c]) := by
  let k := g.asked (g.verbTag c.verb) c.direct c.indirect
  have hk : g.Unmarked k := ⟨score_asked g _ _ _, fun _ ↦ rfl⟩
  rcases Play.after_perform hg.verbs hg.actionless c with ⟨hstore, hs⟩ | ⟨v, hcalls, hrun⟩
  · refine .inr (.inl ⟨⟨hs, fun x ↦ ?_⟩, fun x hx ↦ hx.moved ?_⟩)
    · rw [touched, hstore, touched]
    · rw [hstore]
  · have hdoes := Play.standardVerb_does (g := k) Play.innerExec hg.actionless v
    rw [← hrun] at hdoes
    by_cases hlook : v = .look
    · subst hlook
      exact .inl ⟨hk.trans_visited (hdoes.visited (.inl rfl)), .inl hcalls⟩
    by_cases hwalk : v = .walk
    · subst hwalk
      exact .inl ⟨hk.trans_visited (hdoes.visited (.inr rfl)), .inr hcalls⟩
    by_cases htake : v = .take
    · subst htake
      rcases hdoes.taken with ht | ⟨x, hx⟩
      · exact .inr (.inl ⟨hk.trans ht.unmarked,
          fun x hx ↦ hx.moved (congrArg (Store.parent · (.text x)) ht.store)⟩)
      · exact .inr (.inr ⟨x, hcalls, hx.of_asked⟩)
    · exact .inr (.inl ⟨hk.trans (hdoes.unmarked htake hlook hwalk),
        fun x hx ↦ htake (hcalls.unique hx.calls)⟩)

theorem Scored.touched_of_takes (hg : g.Scored) {c : Command} {x : String} (hx : g.Takes c x) :
    (g.afterCommands [c]).touched x := by
  rcases hg.command_cases c with ⟨-, hl | hw⟩ | ⟨-, hno⟩ | ⟨y, -, ht⟩
  · cases hx.calls.unique hl
  · cases hx.calls.unique hw
  · exact absurd hx (hno x)
  · obtain ⟨a, -, ha, -, hb⟩ := ht.moves hg
    by_cases he : x = a
    · rwa [he]
    · exact absurd (hb x he).2 hx.moved

/-- A command counts at most one object, which it takes, and all else that it touches is the room
that it describes. -/
theorem Scored.counts (hg : g.Scored) (c : Command) {n : ℤ}
    (hn : (g.globalOr "SCORE" (.int 0)).int? = some n) :
    ∃ S : Finset String,
      ((g.afterCommands [c]).globalOr "SCORE" (.int 0)).int? =
      some (n + ∑ x ∈ S, g.store.worth (.text x)) ∧
      (∀ x ∈ S, g.Takes c x ∧ g.touched x = false ∧ (g.afterCommands [c]).touched x) ∧
      ∀ x, (g.afterCommands [c]).touched x → g.touched x ∨ x ∈ S ∨ g.Describes c x := by
  rcases hg.command_cases c with ⟨hvisit, hcalls⟩ | ⟨hsame, -⟩ | ⟨x, hcalls, ht⟩
  · refine ⟨∅, by rw [hvisit.score, hn]; simp, by simp, fun x hx ↦ ?_⟩
    rcases hvisit.touched x hx with ht | hhere
    · exact .inl ht
    · cases hold : g.touched x with
      | true => exact .inl rfl
      | false => exact .inr (.inr ⟨hcalls, hhere, hold, hx⟩)
  · refine ⟨∅, by rw [hsame.score, hn]; simp, by simp, fun x hx ↦ .inl ?_⟩
    rwa [← hsame.touched x]
  · obtain ⟨a, ha, htouched, hmoved, hrest⟩ := ht.moves hg
    have hfind : g.store.find? x = g.store.find? (.text a) := Store.find?_of_string? _ ha
    have hflag : g.store.hasFlag x Play.touchedFlag = g.touched a := by
      rw [touched, Store.hasFlag, Store.hasFlag, hfind]
    have hworth : g.store.worth x = g.store.worth (.text a) := by
      rw [Store.worth, Store.worth, Store.property, Store.property, hfind]
    have hscore := ht.score n _ hn (hg.valued x)
    rw [hflag, hworth] at hscore
    have hother : ∀ y, y ≠ a → (g.afterCommands [c]).touched y → g.touched y :=
      fun y hy h ↦ (hrest y hy).1 ▸ h
    cases hfirst : g.touched a with
    | true =>
      refine ⟨∅, ?_, by simp, fun y hy ↦ .inl ?_⟩
      · rw [hscore, if_pos hfirst]
        simp
      · by_cases he : y = a
        · rw [he, hfirst]
        · exact hother y he hy
    | false =>
      refine ⟨{a}, ?_, ?_, fun y hy ↦ ?_⟩
      · rw [hscore, hfirst, Finset.sum_singleton]
        rfl
      · simp only [Finset.mem_singleton, forall_eq]
        exact ⟨⟨hcalls, hmoved⟩, hfirst, htouched⟩
      · by_cases he : y = a
        · exact .inr (.inl (by simp [he]))
        · exact .inl (hother y he hy)

/-- The objects that the commands have counted. -/
structure Counted (g : Game) (n : ℤ) (commands : List Command) (S : Finset String) : Prop where
  score : ((g.afterCommands commands).globalOr "SCORE" (.int 0)).int? =
    some (n + ∑ x ∈ S, g.store.worth (.text x))
  takes : ∀ x ∈ S, g.During commands (·.Takes · x)
  untouched : ∀ x ∈ S, g.touched x = false
  marked : ∀ x ∈ S, (g.afterCommands commands).touched x
  touched : ∀ x, (g.afterCommands commands).touched x →
    g.touched x ∨ x ∈ S ∨ g.During commands (·.Describes · x)

theorem Counted.concat (hg : g.Scored) {n : ℤ} {commands : List Command} {S : Finset String}
    (hS : g.Counted n commands S) (c : Command) : ∃ T, g.Counted n (commands ++ [c]) T := by
  obtain ⟨hk, hlasts⟩ := hg.afterCommands commands
  have hworth (x : Value) : (g.afterCommands commands).store.worth x = g.store.worth x := by
    rw [Store.worth, Store.worth, hlasts.property]
  obtain ⟨T, hscore, htakes, htouched⟩ := hk.counts c hS.score
  have hmono := (hk.afterCommands [c]).2.touched
  have hdisjoint : Disjoint S T := by
    refine Finset.disjoint_left.2 fun x hx hxT ↦ ?_
    have hmarked := hS.marked x hx
    rw [(htakes x hxT).2.1] at hmarked
    cases hmarked
  rw [← afterCommands_concat] at hscore htakes htouched hmono
  refine ⟨S ∪ T, ?_, fun x hx ↦ ?_, fun x hx ↦ ?_, fun x hx ↦ ?_, fun x hx ↦ ?_⟩
  · simp only [hscore, hworth, Finset.sum_union hdisjoint, add_assoc]
  · rcases Finset.mem_union.1 hx with hx | hx
    · exact (hS.takes x hx).append [c]
    · exact .last (htakes x hx).1
  · rcases Finset.mem_union.1 hx with hx | hx
    · exact hS.untouched x hx
    · -- What was touched at the start would be so by now.
      refine Bool.eq_false_iff.2 fun hold ↦ ?_
      have hnow := hlasts.touched _ hold
      rw [← Game.touched, (htakes x hx).2.1] at hnow
      cases hnow
  · rcases Finset.mem_union.1 hx with hx | hx
    · exact hmono _ (hS.marked x hx)
    · exact (htakes x hx).2.2
  · rcases htouched x hx with hold | hT | hnew
    · rcases hS.touched x hold with h | h | h
      · exact .inl h
      · exact .inr (.inl (Finset.mem_union_left T h))
      · exact .inr (.inr (h.append [c]))
    · exact .inr (.inl (Finset.mem_union_right S hT))
    · exact .inr (.inr (.last hnew))

theorem Scored.exists_counted (hg : g.Scored) {n : ℤ}
    (hn : (g.globalOr "SCORE" (.int 0)).int? = some n) (commands : List Command) :
    ∃ S, g.Counted n commands S := by
  induction commands using List.reverseRecOn with
  | nil =>
    exact ⟨∅, by simpa [Game.afterCommands] using hn, by simp, by simp, by simp, fun x hx ↦ .inl hx⟩
  | append_singleton commands c ih =>
    obtain ⟨S, hS⟩ := ih
    exact hS.concat hg c

theorem Scored.touched_of_during (hg : g.Scored) {commands : List Command} {x : String}
    (hx : g.During commands (·.Takes · x)) : (g.afterCommands commands).touched x := by
  induction commands using List.reverseRecOn with
  | nil =>
    obtain ⟨before, c, after, he, -⟩ := hx
    simp at he
  | append_singleton commands c ih =>
    have hk := (hg.afterCommands commands).1
    rw [afterCommands_concat]
    rcases hx.cases_last with h | h
    · exact (hk.afterCommands [c]).2.touched _ (ih h)
    · exact hk.touched_of_takes h

/-- Over any commands the score grows by the values of objects that were taken, each counted once.
None of them had been touched before, and they are all that were taken untouched, but for rooms that
were described. -/
theorem score_counts_each_taken_once (hv : g.OnlyVerbs) (ha : g.store.Actionless)
    (hids : ∀ x ∈ g.store.ids, x.isText) (hw : Value.same (g.global "WINNER") (g.global "WINNER"))
    (hvalued : g.store.Valued) {n : ℤ} (hn : (g.globalOr "SCORE" (.int 0)).int? = some n)
    (commands : List Command) :
    ∃ S : Finset String,
      ((g.afterCommands commands).globalOr "SCORE" (.int 0)).int? =
        some (n + ∑ x ∈ S, g.store.worth (.text x)) ∧
      (∀ x ∈ S, g.During commands (·.Takes · x) ∧ g.touched x = false) ∧
      ∀ x, g.During commands (·.Takes · x) → g.touched x = false →
        ¬ g.During commands (·.Describes · x) → x ∈ S := by
  have hg : g.Scored := ⟨hv, ha, hids, hw, hvalued.int?_property⟩
  obtain ⟨S, hS⟩ := hg.exists_counted hn commands
  refine ⟨S, hS.score, fun x hx ↦ ⟨hS.takes x hx, hS.untouched x hx⟩, fun x ht hno hnever ↦ ?_⟩
  rcases hS.touched x (hg.touched_of_during ht) with h | h | h
  · rw [h] at hno
    cases hno
  · exact h
  · exact absurd h hnever

def bareVault : Game where
  store := .history [
    .define (.text "VAULT") {},
    .define (.text "COIN")
      { parent := .text "VAULT", flags := .list [.text "TAKEBIT"],
        properties := .dict [(.text "VALUE", .int 5)] },
    .define (.text "RING")
      { parent := .text "VAULT", flags := .list [.text "TAKEBIT", .text "TOUCHBIT"],
        properties := .dict [(.text "VALUE", .int 7)] },
    .define (.text "PLAYER") { parent := .text "VAULT" }]
  globals :=
    [(.text "WINNER", .text "PLAYER"), (.text "HERE", .text "VAULT"), (.text "SCORE", .int 10)]

def vault : Game := Runs.after Play.installStandardVerbs bareVault

def taking (x : String) : Command := ⟨.text "TAKE", .text x, .none⟩

def dropping (x : String) : Command := ⟨.text "DROP", .text x, .none⟩

/-- The coin is taken, dropped and taken again, and then the ring is taken. -/
theorem coin_counted_once :
    vault.OnlyVerbs ∧ vault.store.Actionless ∧
      (∀ x ∈ vault.store.ids, x.isText) ∧ vault.store.Valued ∧
      let commands := [taking "COIN", dropping "COIN", taking "COIN", taking "RING"]
      let g := vault.afterCommands commands
      (g.globalOr "SCORE" (.int 0)).int? = some 15 ∧
      (g.store.parent (.text "COIN")).string? = some "PLAYER" ∧
      (g.store.parent (.text "RING")).string? = some "PLAYER" ∧
      ∃ S : Finset String,
        (g.globalOr "SCORE" (.int 0)).int? = some (10 + ∑ x ∈ S, vault.store.worth (.text x)) ∧
        (∀ x ∈ S, vault.During commands (·.Takes · x) ∧ vault.touched x = false) ∧
        ∀ x, vault.During commands (·.Takes · x) → vault.touched x = false →
          ¬ vault.During commands (·.Describes · x) → x ∈ S := by
  have hverbs : vault.OnlyVerbs :=
    Play.onlyVerbs_installed fun _ _ hr ↦ nomatch hr
  have hactions : vault.store.Actionless := by decide +kernel
  have hids : ∀ x ∈ vault.store.ids, x.isText := by decide +kernel
  have hvalued : vault.store.Valued := by decide +kernel
  refine ⟨hverbs, hactions, hids, hvalued, by decide +kernel,
    by decide +kernel, by decide +kernel, ?_⟩
  exact score_counts_each_taken_once hverbs hactions hids (by decide +kernel)
    hvalued (by decide +kernel) _

end Game

end Fable
