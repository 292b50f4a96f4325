import Fable.Proofs.Standard
import Fable.Proofs.Weight

namespace Fable

theorem Store.order_of_int? (s : Store) {a b : Value} {m n : ℤ} (ha : a.int? = some m)
    (hb : b.int? = some n) : s.order a b = .ok (some (compare m n)) := by
  cases a <;> simp only [Value.int?, reduceCtorEq] at ha <;>
    cases b <;> simp only [Value.int?, reduceCtorEq] at hb <;>
    simp [order, Value.orderBy, Value.orderAtoms, Value.float?, Value.int?, ha, hb]

theorem Store.less_of_int? (s : Store) {a b : Value} {m n : ℤ} (ha : a.int? = some m)
    (hb : b.int? = some n) : s.less a b = .ok (decide (m < n)) := by
  rw [less, s.order_of_int? ha hb, Except.map]
  by_cases h : m < n
  · rw [decide_eq_true h, compare_lt_iff_lt.2 h]
    rfl
  · have hne : compare m n ≠ .lt := fun he ↦ h (compare_lt_iff_lt.1 he)
    rw [decide_eq_false h]
    cases hc : compare m n with
    | lt => exact absurd hc hne
    | eq => rfl
    | gt => rfl

namespace Game

structure Weighable (g : Game) (limit : ℤ) : Prop where
  reachable : g.store.Reachable
  sized : g.store.Sized
  winner : (g.global "WINNER").isText
  allowed : (g.globalOr "LOAD-ALLOWED" (.int 100)).int? = some limit

/-- The object is in scope and can be taken, the winner does not have it in hand, is not the object
and is not inside it. -/
structure Takeable (g : Game) (x : Value) : Prop where
  inScope : g.inScope x
  flag : g.store.hasFlag x Play.takeableFlag
  free : Value.same (g.store.parent x) (g.global "WINNER") = false
  outside : ¬ (Value.same (g.global "WINNER") x ∨ g.store.Inside (g.global "WINNER") x)

theorem Takeable.asked {g : Game} {x : Value} (hx : g.Takeable x) (tag direct indirect : Value) :
    (g.asked tag direct indirect).Takeable x := by
  refine ⟨?_, hx.flag, ?_, ?_⟩
  · rw [Game.inScope, winner_asked, here_asked]
    exact hx.inScope
  · rw [winner_asked]
    exact hx.free
  · rw [winner_asked]
    exact hx.outside

/-- The command is answered that the load is too heavy, and nothing else comes of it. -/
def RefusesLoad (g : Game) (verb x indirect : Value) : Prop :=
  Play.perform Play.exec verb x indirect g = .ok true
    ((g.asked (g.verbTag verb) x indirect).wrote [.text "Your load is too heavy.", .text "\n"])

end Game

namespace Play

open Runs Game

variable {g : Game} {x : Value} {limit w n : ℤ}

theorem tooHeavy_eq {winner : Value} (hhash : winner.hashable)
    (hw : g.store.weight winner = .ok (.int w))
    (hn : (g.store.property x (.text "size") (.int 0)).int? = some n)
    (hlimit : (g.globalOr "LOAD-ALLOWED" (.int 100)).int? = some limit) :
    tooHeavy winner x g = .ok (decide (limit < w + n)) g := by
  have hweight : weight winner g = .ok (.int w) g := by
    rw [weight, bind_of_ok (demand_of_hashable hhash g), Runs.get_bind, hw]
    rfl
  have hadd : (Value.int w).add (g.store.property x (.text "size") (.int 0)) = .ok (.int (w + n)) :=
    Value.add_of_int? rfl hn
  rw [tooHeavy, bind_of_ok hweight, Runs.get_bind, hadd]
  change lift (g.store.less (g.globalOr "LOAD-ALLOWED" (.int 100)) (.int (w + n))) g = _
  rw [g.store.less_of_int? hlimit rfl]
  rfl

theorem take_of_heavy (hx : g.global "PRSO" = x) (hhash : x.hashable) (hnone : x.isNone = false)
    (ht : g.Takeable x) (hheavy : tooHeavy (g.global "WINNER") x g = .ok true g) :
    take g = .error (.signal .returnTrue)
      (g.wrote [.text "Your load is too heavy.", .text "\n"]) := by
  rw [take_eq_of_inScope hx hhash hnone ht.inScope ht.free ht.flag, bind_of_ok hheavy, if_pos rfl,
    bind_of_ok (tell_of_render rfl)]
  rfl

theorem take_of_light (hx : g.global "PRSO" = x) (hhash : x.hashable) (hnone : x.isNone = false)
    (ht : g.Takeable x) (hlight : tooHeavy (g.global "WINNER") x g = .ok false g) {s : Store}
    (hmove : Store.move x (g.global "WINNER") g.store = .ok () s) :
    ∃ e h, take g = .error e h ∧ (e = .signal .returnTrue ∨ ∃ f, e = .fault f) ∧
      h.store = s.update x (·.setFlag touchedFlag) ∧ h.global "HERE" = g.global "HERE" := by
  have hrun := take_eq_of_inScope hx hhash hnone ht.inScope ht.free ht.flag
  rw [bind_of_ok hlight, if_neg Bool.false_ne_true] at hrun
  dsimp only at hrun
  rw [Runs.get_bind, bind_of_ok (move_of_ok hmove), if_neg (by decide)] at hrun
  rw [hrun]
  rcases taken_cases hhash hnone rfl rfl (!g.store.hasFlag x touchedFlag) with
    ⟨-, htaken⟩ | ⟨-, f, htaken, -⟩ | ⟨-, total, m, htaken, hm, -⟩
  · exact ⟨_, _, htaken, .inl rfl, rfl, rfl⟩
  · exact ⟨_, _, htaken, .inr ⟨f, rfl⟩, rfl, rfl⟩
  · refine ⟨_, _, htaken, .inl rfl, hm.store, ?_⟩
    rw [global_assign, if_neg (by decide), hm.global]
    rfl

end Play

namespace Game

open Play Runs

variable {g : Game} {verb x indirect : Value} {limit : ℤ}

theorem Weighable.exists_move (hg : g.Weighable limit) (hx : g.Takeable x) :
    ∃ t, Store.move x (g.global "WINNER") g.store = .ok () t ∧ t.Reachable ∧
      g.store.Places x (g.global "WINNER") t := by
  have hd := isDefined_of_inScope hx.inScope
  have hxt := hg.reachable.isText_of_isDefined hd
  rcases Store.move_cases hxt (.of_isText hg.winner) g.store with ⟨f, hf, -⟩ | ⟨hu, -⟩ | ⟨t, ht, -⟩
  · rw [(hg.reachable.nested.obstacle?_eq_none_iff hxt hg.winner).2 hx.outside] at hf
    cases hf
  · rw [hd] at hu
    cases hu
  · exact ⟨t, ht, hg.reachable.move hd (.of_isText hg.winner) ht⟩

/-- The weights before and after an object is moved to the winner. -/
theorem Weighable.weights (hg : g.Weighable limit) (hx : g.Takeable x) {t : Store}
    (ht : Store.move x (g.global "WINNER") g.store = .ok () t) (hr : t.Reachable) :
    ∃ carried inside : ℤ, g.store.weight (g.global "WINNER") = .ok (.int carried) ∧
      g.store.weight x = .ok (.int inside) ∧
      let after := carried +
        if g.store.held x (g.global "WINNER") then 0 else g.store.sizeOf x + inside
      t.weight (g.global "WINNER") = .ok (.int after) ∧
        (t.update x (·.setFlag touchedFlag)).weight (g.global "WINNER") = .ok (.int after) := by
  have hd := isDefined_of_inScope hx.inScope
  have hxt := hg.reachable.isText_of_isDefined hd
  obtain ⟨a, ha⟩ := Value.isText_iff.1 hxt
  obtain ⟨b, hb⟩ := Value.isText_iff.1 hg.winner
  have hsized := (Store.sameSizes_of_move hxt ht).sized hg.sized
  have hmoved := hg.reachable.contents_of_move ha hb hd ht
  have hset : Store.setFlag x touchedFlag t = .ok () (t.update x (·.setFlag touchedFlag)) :=
    Store.setFlag_eq_ok (Value.hashable_of_isText hxt) (Value.isNone_eq_false_of_isText hxt) rfl
  have hflagged : (t.update x (·.setFlag touchedFlag)).Sized :=
    (Store.sameSizes_update (f := (·.setFlag touchedFlag)) hxt fun _ ↦ rfl).sized hsized
  refine ⟨_, _, hg.reachable.weight_eq hg.sized hb, hg.reachable.weight_eq hg.sized ha, ?_, ?_⟩
  · rw [hr.weight_eq hsized hb, hmoved]
  · rw [(hr.setFlag hxt hset).1.weight_eq hflagged hb, Store.contents_setFlag hxt, hmoved]

section

variable (hl : g.Leads .take verb x indirect) (hx : g.Takeable x) (hxt : x.isText)

include hl hx hxt

theorem refusesLoad_of_heavy
    (hheavy : tooHeavy (g.global "WINNER") x (g.asked (g.verbTag verb) x indirect) =
      .ok true (g.asked (g.verbTag verb) x indirect)) : g.RefusesLoad verb x indirect := by
  rw [← winner_asked g (g.verbTag verb) x indirect] at hheavy
  have hrun := take_of_heavy (direct_asked ..) hl.direct (Value.isNone_eq_false_of_isText hxt)
    (hx.asked ..) hheavy
  refine perform_of_signal hl hrun hl.actionless ?_
  change ((g.asked (g.verbTag verb) x indirect).global "HERE").hashable
  rw [here_asked]
  exact hl.here

theorem store_of_light
    (hlight : tooHeavy (g.global "WINNER") x (g.asked (g.verbTag verb) x indirect) =
      .ok false (g.asked (g.verbTag verb) x indirect)) {t : Store}
    (hmove : Store.move x (g.global "WINNER") g.store = .ok () t) :
    (after (perform Play.exec verb x indirect) g).store = t.update x (·.setFlag touchedFlag) := by
  have hmoved := hl.actionless.of_move hmove
  rw [← winner_asked g (g.verbTag verb) x indirect] at hlight hmove
  obtain ⟨e, h, hrun, he, hstore, hroom⟩ := take_of_light (direct_asked ..) hl.direct
    (Value.isNone_eq_false_of_isText hxt) (hx.asked ..) hlight hmove
  rw [here_asked] at hroom
  have hactions : h.store.Actionless := by
    rw [hstore]
    exact hmoved.update x fun _ ↦ rfl
  rcases he with rfl | ⟨f, rfl⟩
  · rw [after_of_ok (perform_of_signal hl hrun hactions (hroom ▸ hl.here)), hstore]
  · rw [after_of_error (perform_of_exit hl hrun nofun), hstore]

end

/-- An object is refused by what the winner carries and its own size. What the winner carries
afterwards counts what is in the object, too, but counts nothing that the winner had already. So the
limit is kept exactly if it does not lie between the two. -/
theorem load_limit_kept_iff (hl : g.Leads .take verb x indirect) (hg : g.Weighable limit)
    (hx : g.Takeable x) :
    ∃ (t : Store) (carried size inside : ℤ),
      g.store.weight (g.global "WINNER") = .ok (.int carried) ∧
      (g.store.property x (.text "size") (.int 0)).int? = some size ∧
      g.store.weight x = .ok (.int inside) ∧
      Store.move x (g.global "WINNER") g.store = .ok () t ∧
      let load := carried + size
      let after := carried + if g.store.held x (g.global "WINNER") then 0 else size + inside
      t.weight (g.global "WINNER") = .ok (.int after) ∧
        (g.RefusesLoad verb x indirect ↔ limit < load) ∧
        (¬ g.RefusesLoad verb x indirect →
          let s := (Runs.after (perform Play.exec verb x indirect) g).store
          Value.same (s.parent x) (g.global "WINNER") ∧
            s.weight (g.global "WINNER") = .ok (.int after)) ∧
        ((g.RefusesLoad verb x indirect ↔ limit < after) ↔
          ¬ (load ≤ limit ∧ limit < after ∨ after ≤ limit ∧ limit < load)) := by
  obtain ⟨t, hmove, hreach, hpl⟩ := hg.exists_move hx
  obtain ⟨carried, inside, hcarried, hinside, hafter, hflagged⟩ := hg.weights hx hmove hreach
  have hxt := hpl.isText
  have hsize := hg.sized.int?_property x
  have hload : tooHeavy (g.global "WINNER") x (g.asked (g.verbTag verb) x indirect) =
      .ok (decide (limit < carried + g.store.sizeOf x)) (g.asked (g.verbTag verb) x indirect) := by
    refine tooHeavy_eq (Value.hashable_of_isText hg.winner) hcarried hsize ?_
    rw [globalOr_asked _ _ _ _ (by decide) (by decide) (by decide)]
    exact hg.allowed
  have hheavy : limit < carried + g.store.sizeOf x → g.RefusesLoad verb x indirect := fun h ↦
    refusesLoad_of_heavy hl hx hxt (by rw [hload, decide_eq_true h])
  have hlight : ¬ limit < carried + g.store.sizeOf x →
      (after (perform Play.exec verb x indirect) g).store = t.update x (·.setFlag touchedFlag) :=
    fun h ↦ store_of_light hl hx hxt (by rw [hload, decide_eq_false h]) hmove
  have htaken : Value.same ((t.update x (·.setFlag touchedFlag)).parent x) (g.global "WINNER") := by
    have hkeeps : Store.Keeps t (t.update x (·.setFlag touchedFlag)) :=
      Store.keeps_update hxt fun _ ↦ rfl
    rw [hkeeps.parent x hxt, hpl.parent x hxt, if_pos rfl, Value.same_eq_of_isText _ hg.winner,
      beq_self_eq_true]
  have hiff : g.RefusesLoad verb x indirect ↔ limit < carried + g.store.sizeOf x := by
    refine ⟨fun href ↦ ?_, hheavy⟩
    by_contra hle
    -- A refusal leaves the objects alone, so that the winner would have held this one before.
    have hstore := hlight hle
    rw [after_of_ok href] at hstore
    rw [← hstore] at htaken
    exact Bool.false_ne_true (hx.free.symm.trans htaken)
  refine ⟨t, carried, _, inside, hcarried, hsize, hinside, hmove, hafter, hiff, fun hno ↦ ?_, ?_⟩
  · have hstore := hlight fun h ↦ hno (hheavy h)
    dsimp only
    rw [hstore]
    exact ⟨htaken, hflagged⟩
  · rw [hiff]
    omega

def bareSack : Game where
  store := .history [
    .define (.text "ROOM") {},
    .define (.text "PLAYER") { parent := .text "ROOM" },
    .define (.text "SACK")
      { parent := .text "ROOM", flags := .list [.text "TAKEBIT"], fields := [(.size, .int 10)] },
    .define (.text "ROCK") { parent := .text "SACK", fields := [(.size, .int 95)] }]
  globals := [(.text "WINNER", .text "PLAYER"), (.text "PLAYER", .text "PLAYER"),
    (.text "HERE", .text "ROOM"), (.text "LOAD-ALLOWED", .int 100)]

def sack : Game := after installStandardVerbs bareSack

theorem reachable_bareSack : bareSack.store.Reachable :=
  Store.reachable_history (by decide +kernel)

/-- The sack is taken, although the player may carry 100 and carries 105 then. -/
theorem sack_taken_over_limit :
    (sack.globalOr "LOAD-ALLOWED" (.int 100)).int? = some 100 ∧
      let s := (after (perform Play.exec (.text "TAKE") (.text "SACK") .none) sack).store
      (s.parent (.text "SACK")).string? = some "PLAYER" ∧
        (s.weight (.text "PLAYER")).toOption.bind Value.int? = some 105 := by
  decide +kernel

theorem sack_load_limit_not_kept :
    sack.Leads .take (.text "TAKE") (.text "SACK") .none ∧ sack.Weighable 100 ∧
      sack.Takeable (.text "SACK") ∧ ¬ sack.RefusesLoad (.text "TAKE") (.text "SACK") .none ∧
      (after (perform Play.exec (.text "TAKE") (.text "SACK") .none) sack).store.weight
        (sack.global "WINNER") = .ok (.int 105) := by
  have hactions : bareSack.store.Actionless := by decide +kernel
  have hoffer : bareSack.Offerable := ⟨fun _ ↦ by decide +kernel, by decide +kernel⟩
  have hleads : sack.Leads .take (.text "TAKE") (.text "SACK") .none :=
    leads_of_installed hactions hoffer (by decide +kernel) rfl rfl rfl
  have hstore : sack.store = bareSack.store := store_installed bareSack
  have hreachable : sack.store.Reachable := by
    rw [hstore]
    exact reachable_bareSack
  have hweighable : sack.Weighable 100 :=
    ⟨hreachable, by decide +kernel, by decide +kernel, by decide +kernel⟩
  have houtside : sack.store.obstacle? (.text "SACK") (sack.global "WINNER") = none := by
    decide +kernel
  have htakeable : sack.Takeable (.text "SACK") :=
    ⟨by decide +kernel, by decide +kernel, by decide +kernel,
    (hreachable.nested.obstacle?_eq_none_iff rfl hweighable.winner).1 houtside⟩
  obtain ⟨t, carried, size, inside, hcarried, hsize, hinside, -, -, hrefuses, htaken, -⟩ :=
    load_limit_kept_iff hleads hweighable htakeable
  have hzero : (sack.store.weight (sack.global "WINNER")).toOption.bind Value.int? = some 0 := by
    decide +kernel
  have hten : (sack.store.property (.text "SACK") (.text "size") (.int 0)).int? = some 10 := by
    decide +kernel
  have hrock : (sack.store.weight (.text "SACK")).toOption.bind Value.int? = some 95 := by
    decide +kernel
  have hheld : sack.store.held (.text "SACK") (sack.global "WINNER") = false := by decide +kernel
  obtain rfl : carried = 0 := by
    rw [hcarried] at hzero
    exact Option.some.inj hzero
  obtain rfl : size = 10 := Option.some.inj (hsize.symm.trans hten)
  obtain rfl : inside = 95 := by
    rw [hinside] at hrock
    exact Option.some.inj hrock
  have hnot : ¬ sack.RefusesLoad (.text "TAKE") (.text "SACK") .none :=
    fun h ↦ absurd (hrefuses.1 h) (by decide)
  refine ⟨hleads, hweighable, htakeable, hnot, (htaken hnot).2.trans ?_⟩
  rw [hheld]
  rfl

end Game

end Fable
