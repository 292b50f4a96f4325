import Fable.Proofs.Wording

namespace Fable

namespace Play

open Runs Game

variable {α β : Type} {g : Game}

theorem heard_bind {p : Play α} {f : α → Play β} (hp : Heard (exit? p g) (after p g))
    (hf : ∀ a h, p g = .ok a h → h.Textual → Heard (exit? (f a) h) (after (f a) h)) :
    Heard (exit? (p >>= f) g) (after (p >>= f) g) := by
  cases hrun : p g with
  | ok a h =>
    rw [exit?_of_ok hrun, after_of_ok hrun] at hp
    rw [exit?, after, bind_of_ok hrun]
    exact hf a h hrun hp
  | error e h =>
    rw [exit?_of_error hrun, after_of_error hrun] at hp
    rwa [exit?_of_error (bind_of_error hrun f), after_of_error (bind_of_error hrun f)]

theorem heard_get_bind {f : Game → Play β} (h : Heard (exit? (f g) g) (after (f g) g)) :
    Heard (exit? (MonadState.get >>= f) g) (after (MonadState.get >>= f) g) := h

/-- The player sets out only for what is defined. -/
theorem isText_of_setOut {dest : Value} {h : Game} (hg : g.store.Worded)
    (hrun : Play.setOut g = .ok dest h) :
    dest.isText := by
  have hquiet : Quiet destination := .destination
  obtain ⟨x, k, hdest, hset⟩ := of_bind_ok hrun
  rw [← (hquiet.told_of_ok hdest).store] at hg
  dsimp only at hset
  split at hset
  · obtain ⟨_, _, -, hleft⟩ := of_bind_ok hset
    cases hleft
  obtain ⟨_, m, hdemand, hrest⟩ := of_bind_ok hset
  obtain rfl := of_demand hdemand
  rw [Runs.get_bind] at hrest
  split at hrest
  · obtain ⟨_, _, -, hleft⟩ := of_bind_ok hrest
    cases hleft
  · next hdefined =>
    obtain ⟨_, n, -, hpure⟩ := of_bind_ok hrest
    cases hpure
    rw [Bool.not_eq_true', Bool.not_eq_false] at hdefined
    obtain ⟨r, hr⟩ := Option.isSome_iff_exists.1 hdefined
    exact (hg.of_find? hr).1

namespace Speaking

theorem bind_of {p : Play α} {f : α → Play β} (hp : Speaking p)
    (hf : ∀ g a h, g.Textual → p g = .ok a h → Speaking (f a)) : Speaking (p >>= f) :=
  fun g hg ↦ heard_bind (hp g hg) fun a h hrun ↦ hf g a h hg hrun h

theorem get_bind_of {f : Game → Play β} (hf : ∀ g, g.Textual → Speaking (f g)) :
    Speaking (MonadState.get >>= f) :=
  fun g hg ↦ hf g hg g hg

theorem tryCatch {p : Play α} {f : Exit → Play α} (hp : Speaking p)
    (hfault : ∀ x, Speaking (f (.fault x))) (hsignal : ∀ s, Speaking (f (.signal s)))
    (hended : ∀ r, f (.ended r) = throw (.ended r)) :
    Speaking (tryCatch p f) := by
  intro g hg
  have hheard := hp g hg
  cases hrun : p g with
  | ok a h =>
    rw [exit?_of_ok hrun, after_of_ok hrun] at hheard
    rwa [exit?_of_ok (tryCatch_of_ok hrun f), after_of_ok (tryCatch_of_ok hrun f)]
  | error e h =>
    rw [exit?_of_error hrun, after_of_error hrun] at hheard
    rw [exit?, after, tryCatch_of_error hrun]
    cases e with
    | fault x => exact hfault x h hheard
    | signal s => exact hsignal s h hheard
    | ended r =>
      rw [hended]
      exact hheard

theorem write {v : Value} (hv : v.isText) : Speaking (Play.write v) :=
  fun _ hg ↦ hg.wrote [v] (by simpa using hv)

end Speaking

end Play

instance : Game.Speech Game.Speaks where
  tell tokens := by
    refine Play.Speaking.get_bind_of fun g hg ↦ ?_
    have hvoice : ∀ v w, (Play.voice g.store).describe v = .ok w → w.isText :=
      fun _ _ ↦ hg.store.isText_describe
    have htexts := Tell.isText_of_mem_render hvoice 0 tokens
    refine .bind (.forM_of_mem fun v hv ↦ Play.Speaking.write (htexts v hv)) fun _ ↦ ?_
    split
    · exact .ite (.report _) (.fail _)
    · exact .pure ()

namespace Play

open Runs Game

variable {α β : Type} {g : Game}

namespace Speaking

theorem setGlobal {name : String} {v : Value} (hv : name = "SCORE" ∨ name = "MOVES" → v.IsTally) :
    Speaking (Play.setGlobal name v) :=
  fun _ hg ↦ ⟨hg.toWorded.assign name v hv, hg.written⟩

theorem edit (id : Value) (objection : Option Fault) {f : Record → Record}
    (hf : ∀ r, r.Worded → (f r).Worded) :
    Speaking (onStore (Store.edit id objection f)) := by
  intro g hg
  cases hs : Store.edit id objection f g.store with
  | ok u s =>
    rw [exit?_of_ok (onStore_of_ok hs), after_of_ok (onStore_of_ok hs)]
    exact ⟨hg.toWorded.of_store (hg.store.of_edit hf hs), hg.written⟩
  | error e s =>
    rw [exit?_of_error (onStore_of_error hs), after_of_error (onStore_of_error hs),
      Store.of_edit_error hs]
    exact hg

theorem setFlag (id flag : Value) : Speaking (onStore (Store.setFlag id flag)) :=
  edit _ _ fun _ hr ↦ ⟨hr.name, hr.action, hr.properties⟩

theorem clearFlag (id flag : Value) : Speaking (onStore (Store.clearFlag id flag)) :=
  edit _ _ fun _ hr ↦ ⟨hr.name, hr.action, hr.properties⟩

theorem move (id into : Value) : Speaking (Play.move id into) := by
  intro g hg
  have hrefused (f : Fault) : Speaking
      (if f.isAuthoring then do Play.report f; Pure.pure false else Play.fail f : Play Bool) :=
    .ite (.bind (.report f) fun _ ↦ .pure _) (.fail f)
  cases hs : Store.move id into g.store with
  | ok u s =>
    rw [exit?_of_ok (move_of_ok hs), after_of_ok (move_of_ok hs)]
    exact ⟨hg.toWorded.of_store (hg.store.of_move hs), hg.written⟩
  | error f s =>
    rw [exit?, after, move_of_error hs]
    exact hrefused f g hg

theorem score {points : Value} (hpoints : points.IsTally) : Speaking (Play.score points) :=
  get_bind_of fun _ hg ↦ bind_of (.sum _ _) fun _ _ _ _ hrun ↦
    .bind (setGlobal fun _ ↦ isTally_of_sum hg.score hpoints hrun) fun _ ↦ .pure _

theorem countMove : Speaking Play.countMove :=
  get_bind_of fun _ hg ↦ bind_of (.sum _ _) fun _ _ _ _ hrun ↦
    setGlobal fun _ ↦ isTally_of_sum hg.moves (Value.IsJson.int 1).isTally hrun

end Speaking

/-- Verbs write texts alone, unless they end the game. -/
theorem Verbal.speaking {p : Play α} (hp : Verbal p) : Speaking p := by
  induction hp with
  | pure a => exact .pure a
  | fail f => exact .fail f
  | signal | signal_bind => exact fun _ hg ↦ hg
  | bind _ _ ihp ihf => exact .bind ihp ihf
  | look _ _ ih => exact .get_bind ih
  | newStamps n => exact .newStamps n
  | tell tokens => exact .tell tokens
  | move id into => exact .move id into
  | setFlag id flag => exact .setFlag id flag
  | clearFlag id flag => exact .clearFlag id flag
  | refuse => exact .bind (.onGenerator _) fun _ ↦ .tell _
  | reward id =>
    exact .get_bind_of fun g hg ↦
      .bind (Speaking.score (hg.store.isTally_value id)) fun _ ↦ .pure ()

namespace Speaking

theorem boundary {p : Play Value} (hp : Speaking p) : Speaking (Play.boundary p) :=
  tryCatch hp (fun _ ↦ .fail _) (fun _ ↦ .pure _) fun _ ↦ rfl

section

variable {exec : Exec} (hexec : ∀ q v args, q.body = .verb v → Speaking (exec (.routine q) args))

include hexec

theorem call (name : Value) (args : List Value) : Speaking (Play.call exec name args) := by
  have hroutine : Speaking (Play.routine name) := .bind (.demand name) fun _ ↦
    .get_bind fun _ ↦ .pure _
  refine bind_of hroutine fun g r h hg hrun ↦ ?_
  obtain ⟨_, k, hdemand, hrest⟩ := of_bind_ok hrun
  obtain rfl := of_demand hdemand
  cases hrest
  cases hr : h.routines.find? name with
  | none => exact .pure _
  | some r =>
    obtain ⟨q, v, rfl, hq⟩ := hg.verbs name r hr
    exact boundary (hexec q v args hq)

/-- The routine that an object's action names takes no message, but there may be none. -/
theorem applyAction (id message : Value) : Speaking (Play.applyAction exec id message) := by
  refine .bind (.demand id) fun _ ↦ get_bind_of fun g hg ↦ ?_
  split
  · exact .pure _
  · next r hr =>
    split
    · exact .pure _
    · next hnone =>
      have htext := (hg.store.of_find? hr).2.action.resolve_left hnone
      rw [if_pos htext]
      exact call hexec _ _

theorem goTo (room : Value) : Speaking (Play.goTo exec room) := by
  refine .get_bind fun g ↦ .bind (move _ room) fun moved ↦ .ite ?_ (.pure _)
  exact .bind (setGlobal (by simp)) fun _ ↦ applyAction hexec room _

theorem look : Speaking (Play.look exec) :=
  .get_bind fun _ ↦ .bind (.tell _) fun _ ↦ .bind (applyAction hexec _ _) fun _ ↦
    .bind (Verbal.describeRoom _).speaking fun _ ↦ .returnTrue

omit hexec in
theorem win : Speaking (Play.win : Play α) := by
  refine get_bind_of fun g hg ↦ bind_of (.lift _) fun _ line _ _ hline ↦
    bind_of (.lift _) fun _ banner _ _ hrun ↦ ?_
  have hbanner : banner.isText :=
    Value.isText_add (Value.isText_add rfl hg.banners.2 (ok_of_lift hline)) rfl (ok_of_lift hrun)
  refine .bind (write hbanner) fun _ ↦ .bind (setGlobal (by simp)) fun _ k hk ↦ ?_
  exact ⟨⟨hk.banners, hk.store, hk.verbs, hk.score, hk.moves, hk.prompts⟩, hk.written⟩

omit hexec in
theorem arrive {room : Value} (hg : g.Textual)
    (hroom : g.store.property room (.text "DEATH") .none = g.epitaph) :
    Heard (exit? (Play.arrive room) g) (after (Play.arrive room) g) := by
  have hwin : Speaking (do
      if ((← MonadState.get).store.property room (.text "VICTORY") .none).truthy
        then Play.win : Play Unit) :=
    .get_bind fun _ ↦ .ite win (.pure ())
  refine heard_get_bind ?_
  rw [hroom]
  dsimp only
  split
  · obtain ⟨banner, hbanner⟩ :=
      Value.exists_add hg.banners.1 (show (Value.text "\n").isText from rfl)
    have hdie : Ends (die g.epitaph : Play Unit) g .died (g.fallen g.epitaph banner) :=
      ends_die.2 ⟨rfl, banner, hbanner, rfl⟩
    rw [die_bind, exit?_of_error hdie, after_of_error hdie]
    exact hg.fallen (Value.isText_add hg.banners.1 rfl hbanner)
  · exact hwin g hg

theorem walk : Speaking (Play.walk exec) := by
  rw [walk_eq]
  refine bind_of Verbal.setOut.speaking fun g dest h hg hrun ↦
    .bind (goTo hexec dest) fun handled k hk ↦ heard_get_bind ?_
  have hdest : dest.isText := isText_of_setOut hg.store hrun
  split
  · exact hk
  · next hhere =>
    have hsame : (k.global "HERE").string? = dest.string? := by
      simpa [Value.alike_eq_of_isText _ hdest] using hhere
    refine heard_bind ((Verbal.describeRoom handled.truthy).speaking k hk) fun _ o hdescribe ho ↦ ?_
    refine heard_bind (arrive ho ?_) fun _ _ _ ho ↦ ho
    have hkept := (Glimpses.seen (describeRoom_glimpses handled.truthy k)).here
    rw [after_of_ok hdescribe] at hkept
    rw [epitaph, Store.property, Store.property, hkept, ← Store.find?_congr _ hdest hsame.symm]

theorem standardVerb (v : StandardVerb) : Speaking (Play.standardVerb exec v) := by
  cases v with
  | look => exact look hexec
  | examine => exact Verbal.examine.speaking
  | take => exact Verbal.take.speaking
  | drop => exact Verbal.drop.speaking
  | inventory => exact Verbal.inventory.speaking
  | openUp => exact Verbal.openUp.speaking
  | closeUp => exact Verbal.closeUp.speaking
  | walk => exact walk hexec
  | score => exact Verbal.showScore.speaking
  | quit => exact fun _ hg ↦ hg

end

theorem execWithin (n : Nat) :
    ∀ q v args, q.body = .verb v → Speaking (Play.execWithin n (.routine q) args) := by
  induction n with
  | zero => exact fun _ _ _ _ ↦ .fail _
  | succ n ih =>
    intro q v args hq
    rw [Play.execWithin, hq]
    exact .ite (standardVerb ih v) (.fail _)

theorem exec (q : Routine) (v : StandardVerb) (args : List Value) (hq : q.body = .verb v) :
    Speaking (Play.exec (.routine q) args) :=
  execWithin callDepth q v args hq

theorem turn (line : String) : Speaking (Play.turn Play.exec (resolve (.text "WALK")) line) := by
  refine tryCatch ?_ (fun _ ↦ .fail _) (fun _ ↦ ?_) fun _ ↦ rfl
  · refine .bind (.get_bind fun _ ↦ .lift _) fun c ↦ ?_
    split
    · exact .bind (.tell _) fun _ ↦ .pure _
    · refine .bind
        (.bind (.perform_of (applyAction exec) (fun _ ↦ call exec _ _) ?_ _ _ _) fun _ ↦ .pure _)
        fun _ ↦ .pure _
      intro name hname v
      exact setGlobal fun h ↦ by rcases h with rfl | rfl <;> simp at hname
  · exact .bind (.bind (.note _) fun _ ↦ .of_silent fun _ ↦
      ⟨rfl, ⟨rfl, rfl, rfl, rfl, rfl, rfl, rfl⟩, rfl, rfl⟩)
      fun _ ↦ .pure _

theorem showRead (echo : Bool) (line : Option Value) :
    Speaking (Play.showRead (.script echo) line) := by
  cases echo with
  | false => cases line <;> exact .pure ()
  | true =>
    cases line with
    | none => exact .pure ()
    | some line =>
      refine .get_bind fun _ ↦ .get_bind fun _ ↦ bind_of (.lift _) fun _ _ _ _ hrun ↦ ?_
      exact write (isText_echoed (ok_of_lift hrun))

theorem turns {exec : Exec} {resolve : String → Play (Option Command)}
    (hturn : ∀ line, Speaking (Play.turn exec resolve line)) (echo : Bool) (lines : List Value) :
    Speaking (Play.turns exec resolve (.script echo) lines) := by
  have hlimit : Speaking atLimit :=
    .get_bind fun _ ↦ .ite (.pure _) (.get_bind fun _ ↦ .get_bind fun _ ↦ .lift _)
  induction lines with
  | nil => exact .bind hlimit fun _ ↦ .ite (.pure _) (.bind (showRead _ _) fun _ ↦ .pure _)
  | cons line rest ih =>
    refine .bind hlimit fun _ ↦ .ite (.pure _) (.bind (showRead _ _) fun _ ↦ .ite (.pure _) ?_)
    split
    · exact .fail _
    · refine .ite ih (.bind (hturn _) fun counts ↦ ?_)
      exact .ite (.bind countMove fun _ ↦ ih) ih

theorem session (echo : Bool) (lines : List Value) (start : Value) :
    Speaking (Play.session Play.exec (resolve (.text "WALK")) (.script echo) lines start) :=
  .bind (.ite (.pure ()) (.bind (goTo exec start) fun _ ↦ .pure ())) fun _ ↦ turns turn echo lines

end Speaking

end Play

end Fable
