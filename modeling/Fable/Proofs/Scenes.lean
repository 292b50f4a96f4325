import Fable.Proofs.Activities

namespace Fable

namespace Scene

open Play Runs

variable {s t : Scene} {r : Reason} {h : Game}

theorem ends_applyPlay {n : Nat} {vs : List Value} {o : Op} {g : Game} (hl : o.isLively) :
    (applyPlay (execWithin n) o vs).Ends g r h ↔ ∃ a, Activity.ofOp? o vs = some a ∧
    Ends ⟨n, a, g⟩ r h := by
  have hone {p : Prop} {a : Activity} (hp : p ↔ Ends ⟨n, a, g⟩ r h) :
      p ↔ ∃ b, some a = some b ∧ Ends ⟨n, b, g⟩ r h := by simpa using hp
  unfold applyPlay Activity.ofOp?
  split
  any_goals contradiction
  · exact hone ends_boundary
  · exact hone Iff.rfl
  · exact hone Iff.rfl
  · exact hone (ends_bind_plain fun _ ↦ .pure _)
  · exact hone (ends_bind_plain fun _ ↦ .pure _)
  · exact hone (ends_bind_plain fun _ ↦ .pure _)
  · exact hone Iff.rfl
  · exact hone Iff.rfl
  · exact hone Iff.rfl
  · exact hone Iff.rfl
  · refine iff_of_false (Plain.fail _).not_ends ?_
    rintro ⟨a, ha, -⟩
    split at ha
    all_goals simp_all

/-- An operation ends the game exactly if it is a lively one and ends it as such. -/
theorem ends_operation {n : Nat} {args vs : List Value} {o : Op} {g : Game} :
    Ends ⟨n, .operation args o vs, g⟩ r h ↔ ∃ a, Activity.ofOp? o vs = some a ∧
      Ends ⟨n, a, g⟩ r h := by
  change (apply (execWithin n) args o vs).Ends g r h ↔ _
  cases hl : o.isLively with
  | false =>
    refine iff_of_false (Plain.apply _ args hl vs).not_ends ?_
    rintro ⟨a, ha, -⟩
    cases (Activity.isLively_of_ofOp? ha).symm.trans hl
  | true =>
    rw [apply_of_isLively _ _ hl]
    exact ends_applyPlay hl

theorem ends_ofDelivery {n : Nat} {d : Delivery} {g : Game} :
    Ends ⟨n, .ofDelivery d, g⟩ r h ↔ (d.run (execWithin n)).Ends g r h := by
  cases d <;> rfl

theorem Opens.ends (ho : s.Opens t) (ht : t.Ends r h) : s.Ends r h := by
  cases ho with
  | body | standard | block | cond | quit => exact ht
  | list | dict | operands | test | lines => exact bind_of_error ht _
  | codesHead | entriesHead | blockHead | clausesHead | resolver | enter => exact bind_of_error ht _
  | operation h | blockTail h | clausesTail h | session h => exact (bind_of_ok h _).trans ht
  | start h | codesTail h | entriesTail h | look h =>
    exact (bind_of_ok h _).trans (bind_of_error ht _)
  | branch h => exact (bind_of_ok h _).trans (by rw [← apply_ite]; exact ht)
  | attempt => exact ends_attempt.2 ht
  | walkVerb h hstart =>
    exact (bind_of_ok h _).trans ((bind_of_ok hstart _).trans (bind_of_error ht _))
  | itemsHead => exact ends_evalItems_cons.2 (.inl ht)
  | itemsTail h => exact ends_evalItems_cons.2 (.inr ⟨_, _, h, ht⟩)
  | clauseHead => exact ends_evalClause_cons.2 (.inl ht)
  | clauseItems h hv => exact ends_evalClause_cons.2 (.inr ⟨_, _, h, hv, ht⟩)
  | lively h => exact ends_operation.2 ⟨_, h, ht⟩
  | walk h => exact ends_walk.2 ⟨_, _, h, .inl ht⟩
  | arrival h hgo hhere hroom => exact ends_walk.2 ⟨_, _, h, .inr ⟨_, _, _, hgo, hhere, hroom, ht⟩⟩
  | deadly h => exact ends_arrive.2 (by rw [if_pos h]; exact ht)
  | winning h hwin => exact ends_arrive.2 (by rw [h]; exact ⟨hwin, ht⟩)
  | call hname hr hsome => exact ends_call.2 ⟨_, hname, hr, hsome, ht⟩
  | named hobject hr hname =>
    have hsome := Value.isNone_eq_false_of_isText hname
    exact ends_applyAction.2 ⟨_, hobject, hr, hsome, by rw [if_pos hname]; exact ht⟩
  | handler hobject hr hsome hname =>
    exact ends_applyAction.2 ⟨_, hobject, hr, hsome, by rw [hname]; exact ht⟩
  | entering h => exact ends_goTo.2 ⟨_, h, ht⟩
  | delivery h => exact ends_anyTaken_cons.2 (.inl (ends_stage.2 ⟨_, h, ends_ofDelivery.1 ht⟩))
  | later h hv => exact ends_anyTaken_cons.2 (.inr ⟨_, _, h, hv, ht⟩)
  | offers hverb => exact ends_perform.2 ⟨hverb, .inl ht⟩
  | after hverb h => exact ends_perform.2 ⟨hverb, .inr ⟨_, _, h, ht⟩⟩
  | resolution => exact ends_turn.2 (.inl ht)
  | command h => exact ends_turn.2 (.inr ⟨_, _, h, ht⟩)
  | turn hline hblank h => exact ends_pass.2 ⟨_, _, hline, hblank, h, ht⟩
  | pass hline h => exact ends_turns_cons.2 ⟨hline, h, .inl ht⟩
  | turns hline h hpass => exact ends_turns_cons.2 ⟨hline, h, .inr ⟨_, hpass, ht⟩⟩
  | goTo hstart => exact ends_enter.2 ⟨hstart, ht⟩

theorem exists_opens_code {n : Nat} {args : List Value} {c : Code} {g : Game}
    (hs : Ends ⟨n, .code args c, g⟩ r h) : ∃ t, Opens ⟨n, .code args c, g⟩ t ∧ t.Ends r h := by
  cases c with
  | none | bool | int | text | fatal | directive | message => cases hs
  | float x => exact absurd hs (Plain.fresh _).not_ends
  | routine name body => exact absurd hs (Plain.newRoutine _ _).not_ends
  | list cs => exact ⟨_, .list, (ends_bind_plain fun _ ↦ .pure _).1 hs⟩
  | dict es => exact ⟨_, .dict, (ends_bind_plain fun _ ↦ .pure _).1 hs⟩
  | op o cs =>
    obtain hs | ⟨vs, k, hvs, hs⟩ := ends_bind.1 hs
    · exact ⟨_, .operands, hs⟩
    · exact ⟨_, .operation hvs, hs⟩
  | block cs => exact ⟨_, .block, hs⟩
  | branch test yes no =>
    obtain hs | ⟨v, k, hv, hs⟩ := ends_bind.1 hs
    · exact ⟨_, .test, hs⟩
    · exact ⟨_, .branch hv, by rw [← apply_ite] at hs; exact hs⟩
  | cond css => exact ⟨_, .cond, hs⟩
  | attempt body => exact ⟨_, .attempt, ends_attempt.1 hs⟩
  | play lines start echo w resolver =>
    obtain hs | ⟨vs, k, hvs, hs⟩ := ends_bind.1 hs
    · exact ⟨_, .lines, hs⟩
    obtain hs | ⟨v, m, hv, hs⟩ := ends_bind.1 hs
    · exact ⟨_, .start hvs, hs⟩
    obtain hs | ⟨v, o, hw, hs⟩ := ends_bind.1 hs
    · exact ⟨_, .walkVerb hvs hv, hs⟩
    exact absurd ((ends_bind_plain .fresh).1 hs) not_ends_run

theorem exists_opens_verb {n : Nat} {v : StandardVerb} {g : Game} (hs : Ends ⟨n, .verb v, g⟩ r h) :
    ∃ t, Opens ⟨n, .verb v, g⟩ t ∧ t.Ends r h := by
  cases v with
  | look =>
    obtain ⟨k, hk, hs⟩ := ends_look.1 hs
    exact ⟨_, .look hk, hs⟩
  | walk =>
    obtain ⟨room, k, hk, hs | ⟨handled, m, o, hgo, hhere, hroom, hs⟩⟩ := ends_walk.1 hs
    · exact ⟨_, .walk hk, hs⟩
    · exact ⟨_, .arrival hk hgo hhere hroom, hs⟩
  | quit => exact ⟨_, .quit, hs⟩
  | examine => exact absurd hs Verbal.examine.plain.not_ends
  | take => exact absurd hs Verbal.take.plain.not_ends
  | drop => exact absurd hs Verbal.drop.plain.not_ends
  | inventory => exact absurd hs Verbal.inventory.plain.not_ends
  | openUp => exact absurd hs Verbal.openUp.plain.not_ends
  | closeUp => exact absurd hs Verbal.closeUp.plain.not_ends
  | score => exact absurd hs Verbal.showScore.plain.not_ends

theorem exists_opens_routine {n : Nat} {q : Value} {args : List Value} {g : Game}
    (hs : Ends ⟨n, .routine q args, g⟩ r h) :
    ∃ t, Opens ⟨n, .routine q args, g⟩ t ∧ t.Ends r h := by
  cases n with
  | zero => cases hs
  | succ n =>
    cases q with
    | routine q =>
      obtain ⟨name, stamp, body⟩ := q
      cases body with
      | code c => exact ⟨_, .body, hs⟩
      | verb v =>
        cases args with
        | nil => exact ⟨_, .standard, hs⟩
        | cons => cases hs
    | _ => cases hs

/-- Where the game ends, it is ended, or it ends in a scene inside. -/
theorem exists_opens (hs : s.Ends r h) :
    (∃ f, s.activity = .finale f) ∨ ∃ t, s.Opens t ∧ t.Ends r h := by
  obtain ⟨n, a, g⟩ := s
  cases a with
  | finale f => exact .inl ⟨f, rfl⟩
  | routine q args => exact .inr (exists_opens_routine hs)
  | code args c => exact .inr (exists_opens_code hs)
  | codes args cs =>
    refine .inr ?_
    cases cs with
    | nil => cases hs
    | cons c cs =>
      obtain hs | ⟨v, k, hv, hs⟩ := ends_bind.1 hs
      · exact ⟨_, .codesHead, hs⟩
      · exact ⟨_, .codesTail hv, (ends_bind_plain fun _ ↦ .pure _).1 hs⟩
  | entries args es =>
    refine .inr ?_
    cases es with
    | nil => cases hs
    | cons e es =>
      obtain hs | ⟨v, k, hv, hs⟩ := ends_bind.1 hs
      · exact ⟨_, .entriesHead, hs⟩
      · exact ⟨_, .entriesTail hv, (ends_bind_plain fun _ ↦ .pure _).1 hs⟩
  | block args last cs =>
    refine .inr ?_
    cases cs with
    | nil => cases hs
    | cons c cs =>
      obtain hs | ⟨v, k, hv, hs⟩ := ends_bind.1 hs
      · exact ⟨_, .blockHead, hs⟩
      · exact ⟨_, .blockTail hv, hs⟩
  | items args last cs =>
    refine .inr ?_
    cases cs with
    | nil => cases hs
    | cons c cs =>
      obtain hs | ⟨v, k, hv, hs⟩ := ends_evalItems_cons.1 hs
      · exact ⟨_, .itemsHead, hs⟩
      · exact ⟨_, .itemsTail hv, hs⟩
  | clause args cs =>
    refine .inr ?_
    cases cs with
    | nil => cases hs
    | cons c cs =>
      obtain hs | ⟨v, k, hv, htruthy, hs⟩ := ends_evalClause_cons.1 hs
      · exact ⟨_, .clauseHead, hs⟩
      · exact ⟨_, .clauseItems hv htruthy, hs⟩
  | clauses args css =>
    refine .inr ?_
    cases css with
    | nil => cases hs
    | cons cs css =>
      obtain hs | ⟨v, k, hv, hs⟩ := ends_bind.1 hs
      · exact ⟨_, .clausesHead, hs⟩
      · cases v with
        | some v => cases hs
        | none => exact ⟨_, .clausesTail hv, hs⟩
  | operation args o vs =>
    obtain ⟨a, ha, hs⟩ := ends_operation.1 hs
    exact .inr ⟨_, .lively ha, hs⟩
  | verb v => exact .inr (exists_opens_verb hs)
  | arrival room =>
    have hs := ends_arrive.1 hs
    split at hs
    · next hdeath => exact .inr ⟨_, .deadly hdeath, hs⟩
    · next hdeath => exact .inr ⟨_, .winning (Bool.eq_false_iff.2 hdeath) hs.1, hs.2⟩
  | call name args =>
    obtain ⟨q, hname, hq, hsome, hs⟩ := ends_call.1 hs
    exact .inr ⟨_, .call hname hq hsome, hs⟩
  | message object m =>
    obtain ⟨q, hobject, hq, hsome, hs⟩ := ends_applyAction.1 hs
    split at hs
    · next hname => exact .inr ⟨_, .named hobject hq hname, hs⟩
    · next hname => exact .inr ⟨_, .handler hobject hq hsome (Bool.eq_false_iff.2 hname), hs⟩
  | goTo room =>
    obtain ⟨k, hk, hs⟩ := ends_goTo.1 hs
    exact .inr ⟨_, .entering hk, hs⟩
  | offers tag direct indirect stages =>
    refine .inr ?_
    cases stages with
    | nil => cases hs
    | cons stage stages =>
      obtain hs | ⟨v, k, hv, hvain, hs⟩ := ends_anyTaken_cons.1 hs
      · obtain ⟨d, hd, hs⟩ := ends_stage.1 hs
        exact ⟨_, .delivery hd, ends_ofDelivery.2 hs⟩
      · exact ⟨_, .later hv hvain, hs⟩
  | command verb direct indirect =>
    obtain ⟨hverb, hs | ⟨handled, k, hk, hs⟩⟩ := ends_perform.1 hs
    · exact .inr ⟨_, .offers hverb, hs⟩
    · exact .inr ⟨_, .after hverb hk, hs⟩
  | resolution m line =>
    obtain ⟨source, w, resolver⟩ := m
    cases resolver with
    | none => exact absurd hs (Plain.resolve _ _).not_ends
    | some c => exact .inr ⟨_, .resolver, (ends_bind_plain fun _ ↦ .lift _).1 hs⟩
  | turn m line =>
    obtain hs | ⟨c, k, hc, hs⟩ := ends_turn.1 hs
    · exact .inr ⟨_, .resolution, hs⟩
    · exact .inr ⟨_, .command hc, hs⟩
  | pass m line =>
    obtain ⟨l, k, hline, hblank, hk, hs⟩ := ends_pass.1 hs
    exact .inr ⟨_, .turn hline hblank hk, hs⟩
  | turns m lines =>
    cases lines with
    | nil => exact absurd hs (Plain.turns_nil (execWithin n) (m.resolve n) _).not_ends
    | cons line lines =>
      obtain ⟨hline, hlimit, hs | ⟨k, hk, hs⟩⟩ := ends_turns_cons.1 hs
      · exact .inr ⟨_, .pass hline hlimit, hs⟩
      · exact .inr ⟨_, .turns hline hlimit hk, hs⟩
  | enter start =>
    obtain ⟨hstart, hs⟩ := ends_enter.1 hs
    exact .inr ⟨_, .goTo hstart, hs⟩
  | session m lines start =>
    obtain hs | ⟨k, hk, hs⟩ := ends_seq.1 hs
    · exact .inr ⟨_, .enter, hs⟩
    · exact .inr ⟨_, .session hk, hs⟩

/-- In the scene the game comes to a finale, which begins in `k`. -/
def Reaches (s : Scene) (f : Finale) (k : Game) : Prop :=
  ∃ n, Relation.ReflTransGen Opens s ⟨n, .finale f, k⟩

theorem Reaches.ends {f : Finale} {k : Game} (hs : s.Reaches f k)
    (hf : (f.play : Play Value).Ends k r h) :
    s.Ends r h := by
  obtain ⟨n, hs⟩ := hs
  induction hs using Relation.ReflTransGen.head_induction_on with
  | refl => exact hf
  | head ho _ ih => exact ho.ends ih

theorem exists_reaches {s : Scene} (hs : s.Ends r h) :
    ∃ f k, s.Reaches f k ∧ (f.play : Play Value).Ends k r h := by
  obtain ⟨f, hf⟩ | ⟨t, ho, ht⟩ := exists_opens hs
  · obtain ⟨n, a, g⟩ := s
    cases hf
    exact ⟨f, g, ⟨n, .refl⟩, hs⟩
  · -- The scene inside has a lower rank: fewer calls are left, or it is of a lower level, or its
    -- text is shorter.
    obtain ⟨f, k, ⟨n, hreach⟩, hf⟩ := exists_reaches ht
    exact ⟨f, k, ⟨n, .head ho hreach⟩, hf⟩
termination_by s.rank
decreasing_by exact ho.rank_lt

end Scene

end Fable
