import Fable.Proofs.Listings

namespace Fable

namespace Cli
def entryLine (s : Store) (e : ℕ × Value) : String :=
  match s.find? e.2 with
  | some r => treeLine r e.1
  | none => ""

/-- If the ways to some objects are short enough, their tree is a listing, and a higher limit would
make no difference. -/
theorem exists_listing {s : Store} (ht : s.Tidy) {n : ℕ} {xs : List Value}
    (hxs : ∀ x ∈ xs, s.isDefined x ∧ ∃ a, x.string? = some a ∧ s.Within n a) (depth : ℕ) :
    ∃ es, s.Listing depth xs es ∧ ∀ m, n ≤ m →
      xs.flatMap (tree s m depth) = es.map (entryLine s) := by
  induction n generalizing xs depth with
  | zero =>
    cases xs with
    | nil => exact ⟨[], .nil depth, fun _ _ ↦ rfl⟩
    | cons x xs =>
      obtain ⟨-, a, -, hwithin⟩ := hxs x (by simp)
      exact absurd (hwithin a 0 rfl) (Nat.not_lt_zero 0)
  | succ n ih =>
    induction xs with
    | nil => exact ⟨[], .nil depth, fun _ _ ↦ rfl⟩
    | cons x xs ihxs =>
      obtain ⟨hd, a, ha, hwithin⟩ := hxs x (by simp)
      have hx : x.isText := Value.isText_iff.2 ⟨a, ha⟩
      obtain ⟨rest, hrest, hlines⟩ := ihxs fun z hz ↦ hxs z (by simp [hz])
      have hkids : ∀ c ∈ s.children x, s.isDefined c ∧ ∃ b, c.string? = some b ∧ s.Within n b := by
        intro c hc
        obtain ⟨hct, hcd, hcx⟩ := ht.of_mem_children_of_isPlace (.of_isText hx) hc
        obtain ⟨b, hb⟩ := Value.isText_iff.1 hct
        exact ⟨hcd, b, hb, hwithin.of_link (by rw [Store.links_of_string? hb, hcx, ha])⟩
      obtain ⟨inside, hinside, htree⟩ := ih hkids (depth + 1)
      refine ⟨_, .cons hinside hrest, fun m hm ↦ ?_⟩
      obtain ⟨r, hr⟩ := Option.isSome_iff_exists.1 hd
      cases m with
      | zero => omega
      | succ m =>
        rw [List.flatMap_cons, hlines (m + 1) hm, tree, hr]
        simp only [htree m (by omega), List.map_cons, List.map_append,
          entryLine, hr, List.cons_append]

end Cli

def Game.Keeps (P : Store → Prop) (g : Game) (_ : Option Exit) (h : Game) : Prop :=
  P g.store → P h.store

instance {P : Store → Prop} : Game.Rule (Game.Keeps P) where
  told ht hg := ht.store ▸ hg
  failed _ _ hg := hg
  trans hg hh hk := hh (hg hk)

namespace World

open Runs

variable {P : Store → Prop}

def ObjectSpec.CopiedTo (o : ObjectSpec) (s : Store) (es : List (Value × Value)) : Prop :=
  ∃ t n k, s.opened o.properties = .ok t ∧ ((Value.dict t).stamped n).1 = .dict es k

theorem ObjectSpec.CopiedTo.exists_opened {o : ObjectSpec} {s : Store} {es : List (Value × Value)}
    (h : o.CopiedTo s es) :
    ∃ t, s.opened o.properties = .ok t ∧ Value.bareEntries es = Value.bareEntries t := by
  obtain ⟨t, n, k, ht, hes⟩ := h
  have hbare := Value.bare_stamped n (.dict t)
  rw [hes] at hbare
  simp only [Value.bare, Value.dict.injEq, and_true] at hbare
  exact ⟨t, ht, hbare⟩

theorem keeps_installObject {o : ObjectSpec} (hdefine : ∀ s es k, o.CopiedTo s es → P s →
    P (after (Store.define (.text o.id) (o.attributes (.dict es k))) s)) :
    Play.Obeys (Game.Keeps P) o.install := by
  intro g
  cases ht : g.store.opened o.properties with
  | error f =>
    rw [ObjectSpec.install, after, exit?, Runs.get_bind, ht]
    exact id
  | ok t =>
    obtain ⟨es, k, hv, -⟩ := Value.exists_eq_dict_of_bare (Value.bare_stamped g.stamp (.dict t))
    have hkeeps := hdefine g.store es k ⟨t, g.stamp, k, ht, hv⟩
    cases hd : Store.define (.text o.id) (o.attributes (.dict es k)) g.store with
    | ok v s =>
      rw [after_of_ok hd] at hkeeps
      rwa [exit?_of_ok (o.install_of_ok ht hv hd), after_of_ok (o.install_of_ok ht hv hd)]
    | error f s =>
      obtain ⟨f', hf, -⟩ := o.install_of_error ht hv hd
      rw [after_of_error hd] at hkeeps
      rwa [exit?_of_error hf, after_of_error hf]

theorem keeps_install {w : Spec} (hobjects : ∀ o ∈ w.objects, Play.Obeys (Game.Keeps P) o.install) :
    Play.Obeys (Game.Keeps P) w.install := by
  have hglobal (e : Value × Value) : Play.Obeys (Game.Keeps P)
      (modify fun g ↦ { g with globals := g.globals.insert e.1 e.2 } : Play Unit) := fun _ ↦ id
  have hverb (e : Value × String) :
      Play.Obeys (Game.Keeps P) (discard (Play.registerVerb e.1 (.text e.2))) := by
    have hregister : Play.Obeys (Game.Keeps P) (Play.registerVerb e.1 (.text e.2)) :=
      .bind (.demand _) fun _ _ ↦ id
    intro g
    rw [after_discard]
    exact hregister g
  refine .bind (.forM hglobal) fun _ ↦ .bind (.forM hverb) fun _ ↦
    .bind (.forM_of_mem hobjects) fun _ ↦ ?_
  have hlast : Play.Obeys (Game.Keeps P) (do
      Play.note (.installed w.title w.objects.length)
      pure (optional w.start)) := .bind (.note _) fun _ ↦ .pure _
  split
  · exact hlast
  · exact .get_bind fun _ ↦ .ite (.bind (.fail _) fun _ ↦ hlast) hlast

theorem reaching_installObject (o : ObjectSpec) :
    Play.Obeys (Game.Keeps Store.Reachable) o.install := by
  refine keeps_installObject fun s es k _ hs ↦ ?_
  have hcall : ((Store.Call.define (.text o.id) (o.attributes (.dict es k))).after s).Reachable :=
    .call hs ⟨rfl, o.wellTyped_attributes es k⟩
  cases hd : Store.define (.text o.id) (o.attributes (.dict es k)) s with
  | ok v t =>
    rw [after_of_ok hd]
    rwa [Store.Call.after, Store.Call.run, discard_of_ok hd] at hcall
  | error f t =>
    rw [after_of_error hd]
    rwa [Store.Call.after, Store.Call.run, discard_of_error hd] at hcall

theorem reachable_ofPlayer {player : Value} (hp : player.isText) :
    (Store.ofPlayer player).Reachable := by
  have hcall :
      ((Store.Call.define player { fields := [(.desc, .text "you")] }).after {}).Reachable :=
    .call .empty ⟨hp, Value.isPlace_none, ⟨_, rfl⟩, ⟨_, rfl⟩⟩
  have hd := Store.define_player (Value.hashable_of_isText hp)
  rwa [Store.Call.after, Store.Call.run, discard_of_ok hd] at hcall

theorem reachable_of_install {w : Spec} {config : Config} {g h : Game} {v : Value}
    (hp : config.playerId.isText) (hg : Game.start config = .ok g) (hok : w.install g = .ok v h) :
    h.store.Reachable := by
  have hinstall := keeps_install (w := w) (fun o _ ↦ reaching_installObject o) g
  rw [after_of_ok hok] at hinstall
  refine hinstall ?_
  rw [(Game.store_start hg).1]
  exact reachable_ofPlayer hp

end World

namespace Store

theorem Rooted.of_link {s : Store} {x p : String} (hx : s.links x = some p) (hp : s.Rooted p) :
    s.Rooted x := by
  obtain ⟨r, ⟨n, hn⟩, hr⟩ := hp
  refine ⟨r, ⟨n + 1, ?_⟩, hr⟩
  rwa [Function.iterate_succ_apply, Links.step_some, hx]

theorem Placed.isNone_parent {s : Store} (hp : s.Placed) {x : String} (hx : s.links x = none) :
    (s.parent (.text x)).isNone :=
  (hp x).isNone_of_string? hx

/-- All that is defined is rooted exactly if all containers are defined. -/
theorem Nested.all_rooted_iff {s : Store} (hs : s.Nested) :
    (∀ x, s.isDefined (.text x) → s.Rooted x) ↔
      ∀ x p, s.isDefined (.text x) → s.links x = some p → s.isDefined (.text p) := by
  constructor
  · intro h x p hx hp
    obtain ⟨r, ⟨n, hn⟩, hd, hnone⟩ := h x hx
    cases n with
    | zero =>
      obtain rfl : x = r := Option.some.inj hn
      rw [links, Value.string?_eq_none_of_isNone hnone] at hp
      cases hp
    | succ n =>
      rw [Function.iterate_succ_apply, Links.step_some, hp] at hn
      cases n with
      | zero =>
        obtain rfl : p = r := Option.some.inj hn
        exact hd
      | succ n =>
        have hsome : (s.links.step^[n + 1] (some p)).isSome := by rw [hn]; rfl
        exact isDefined_of_links s (Links.iterate_isSome hsome (Nat.succ_le_succ (Nat.zero_le n)))
  · intro h x hx
    have hend := hs.acyclic.iterate_eq_none
      (fun a ha ↦ mem_names_of_isDefined s (isDefined_of_links s ha)) (some x)
    -- The way from `x` ends, and where it ends there is no container.
    generalize s.names.length + 1 = n at hend
    induction n generalizing x with
    | zero => cases hend
    | succ n ih =>
      cases hl : s.links x with
      | none => exact ⟨x, ⟨0, rfl⟩, hx, hs.placed.isNone_parent hl⟩
      | some p =>
        rw [Function.iterate_succ_apply, Links.step_some, hl] at hend
        exact .of_link hl (ih p (h x p hx hl) hend)

end Store

namespace Cli

open Runs

def heading (w : World.Spec) : List String :=
  ("World: " ++ w.title) :: match w.start with
    | some room => if room.isEmpty then [] else ["  Start: " ++ room]
    | none => []

/-- The tree of a world is a listing of what is in no container. It names objects at most once, and
names just those whose containers lead to one that is in none, so that it names all exactly if no
container is undefined. -/
theorem inspect_lists_rooted {find : String → World.Lookup} {path : String}
    {w : World.Spec} {g h : Game} {v : Value} (hload : World.Spec.load find path = .ok w)
    (hg : Game.start {} = .ok g) (hinstall : w.install g = .ok v h) (level : Level) :
    ∃ es : List (ℕ × Value),
      Cli.inspect path false level find =
        { exit := 0, stderr := h.logText level,
          closing := String.join
            ((heading w ++ es.map (entryLine h.store)).map fun l ↦ plain l ++ "\n") } ∧
      h.store.Listing 1 (h.store.children .none) es ∧
      (∀ m, h.store.records.length < m →
        (h.store.children .none).flatMap (tree h.store m 1) = es.map (entryLine h.store)) ∧
      (es.map (·.2.string?)).Nodup ∧
      (∀ e ∈ es, e.2.isText ∧ h.store.isDefined e.2) ∧
      (∀ x, h.store.isDefined (.text x) → (some x ∈ es.map (·.2.string?) ↔ h.store.Rooted x)) ∧
      ((∀ x, h.store.isDefined (.text x) → some x ∈ es.map (·.2.string?)) ↔
        ∀ x p, h.store.isDefined (.text x) → h.store.links x = some p →
          h.store.isDefined (.text p)) := by
  have hr : h.store.Reachable := World.reachable_of_install rfl hg hinstall
  have hn := hr.nested
  have ht := hr.tidy
  have hroots : ∀ x ∈ h.store.children .none, x.isText ∧ h.store.isDefined x := fun x hx ↦
    (ht.of_mem_children_of_isPlace Value.isPlace_none hx).imp_right And.left
  obtain ⟨es, hlisting, hlines⟩ :=
    exists_listing ht (n := h.store.records.length + 1) (fun x hx ↦ by
    obtain ⟨a, ha⟩ := Value.isText_iff.1 (hroots x hx).1
    exact ⟨(hroots x hx).2, a, ha, hn.within a⟩) 1
  have hmem : ∀ x, h.store.isDefined (.text x) →
      (some x ∈ es.map (·.2.string?) ↔ h.store.Rooted x) := by
    intro x hx
    rw [hlisting.mem_iff ht hn.placed fun y hy ↦ (hroots y hy).1]
    constructor
    · rintro ⟨y, hy, r, hr, hreach⟩
      obtain ⟨-, hd, hnone⟩ := ht.of_mem_children_of_isPlace Value.isPlace_none hy
      refine ⟨r, hreach, ?_, hn.placed.isNone_parent ((Store.links_of_string? hr).trans hnone)⟩
      rwa [Store.isDefined, ← Store.find?_of_string? _ hr]
    · rintro ⟨r, hreach, hd, hnone⟩
      obtain ⟨y, hy, hr⟩ := ht.exists_mem_children hn.placed Value.isPlace_none hd
        (Value.string?_eq_none_of_isNone hnone)
      exact ⟨y, hy, r, hr, hreach⟩
  refine ⟨es, ?_, hlisting, hlines,
    hlisting.nodup hn ht hroots (hn.apart_children ht Value.isPlace_none),
    hlisting.named ht hroots, hmem, ?_⟩
  · unfold Cli.inspect
    rw [hload]
    simp only [hg, hinstall, inspectStore, inspectLines, hlines _ le_rfl]
    rfl
  · rw [← hn.all_rooted_iff]
    exact forall₂_congr hmem

theorem exists_of_inspect {find : String → World.Lookup} {path : String}
    {json : Bool} {level : Level} (h : (Cli.inspect path json level find).exit = 0) :
    ∃ w g v k, World.Spec.load find path = .ok w ∧ Game.start {} = .ok g ∧
      w.install g = .ok v k := by
  have hfailed (log : String) (f : Fault) : (failed log f).exit = 1 := by cases f <;> rfl
  unfold Cli.inspect at h
  cases hload : World.Spec.load find path with
  | error f => simp [hload, hfailed] at h
  | ok w =>
    cases hg : Game.start {} with
    | error e => simp [hload, hg, hfailed] at h
    | ok g =>
      cases hinstall : w.install g with
      | error e k => simp [hload, hg, hinstall, hfailed] at h
      | ok v k => exact ⟨w, g, v, k, rfl, rfl, hinstall⟩

def oneFile (text : String) : String → World.Lookup := fun _ ↦ .ok text.toUTF8

theorem load_of_file {find : String → World.Lookup} {path text : String} {bytes : ByteArray}
    (hpath : World.isPath (World.tidyPath path)) (hfile : find (World.tidyPath path) = .ok bytes)
    (htext : World.fileText? bytes = some text) :
    World.Spec.load find path = World.Spec.ofText (World.tidyPath path) text := by
  simp only [World.Spec.load, hpath, hfile, htext, Bool.not_true, Bool.false_eq_true, if_false]

theorem tidyPath_eq {s : String} (hsplit : s.splitOn "/" = [s]) (hroot : World.pathRoot s = "")
    (hs : s ≠ "" ∧ s ≠ ".") : World.tidyPath s = s := by
  have hparts : World.pathParts s = [s] := by simp [World.pathParts, hsplit, hs]
  simp [World.tidyPath, hparts, hroot, hs.1]

theorem tidyPath_w : World.tidyPath "w" = "w" := tidyPath_eq (by cbv) (by cbv) (by decide)

theorem isPath_w : World.isPath (World.tidyPath "w") := by
  rw [tidyPath_w]
  decide +kernel

theorem load_oneFile (text : String) (h : World.fileText? text.toUTF8 = some text) :
    World.Spec.load (oneFile text) "w" = World.Spec.ofText "w" text := by
  rw [load_of_file isPath_w rfl h, tidyPath_w]

def cellarText : String :=
  "\x7b\"objects\":[\x7b\"id\":\"COIN\",\"parent\":\"BOX\"\x7d," ++
    "\x7b\"id\":\"BOX\",\"parent\":\"HALL\"\x7d,\x7b\"id\":\"HALL\"\x7d]\x7d"

theorem cellar_listed_in_order :
    ∃ w g v h, World.Spec.load (oneFile cellarText) "w" = .ok w ∧ Game.start {} = .ok g ∧
      w.install g = .ok v h ∧ (∃ es, h.store.Listing 1 (h.store.children .none) es ∧
        (es.map (·.2.string?)).Nodup ∧
        (Cli.inspect "w" false .warning (oneFile cellarText)).closing =
          String.join ((heading w ++ es.map (entryLine h.store)).map fun l ↦ plain l ++ "\n")) ∧
      (Cli.inspect "w" false .warning (oneFile cellarText)).closing =
        "World: Untitled\n  - PLAYER (you)\n  - HALL (HALL)\n    - BOX (BOX)\n      - COIN (COIN)\n"
          := by
  have hload := load_oneFile cellarText (by decide +kernel)
  have hshown : (Cli.inspect "w" false .warning (oneFile cellarText)).exit = 0 ∧
      (Cli.inspect "w" false .warning (oneFile cellarText)).closing =
        "World: Untitled\n  - PLAYER (you)\n  - HALL (HALL)\n    - BOX (BOX)\n      - COIN (COIN)\n"
          := by
    unfold Cli.inspect
    rw [hload]
    decide +kernel
  obtain ⟨w, g, v, h, hw, hg, hinstall⟩ := exists_of_inspect hshown.1
  obtain ⟨es, hinspect, hlisting, -, hnodup, -⟩ := inspect_lists_rooted hw hg hinstall .warning
  exact ⟨w, g, v, h, hw, hg, hinstall, ⟨es, hlisting, hnodup, by rw [hinspect]⟩, hshown.2⟩

def strayText : String :=
  "\x7b\"objects\":[\x7b\"id\":\"COIN\",\"parent\":\"NOWHERE\"\x7d]\x7d"

/-- The coin is defined, but the tree has no entry for it. -/
theorem stray_coin_not_shown :
    ∃ w g v h, World.Spec.load (oneFile strayText) "w" = .ok w ∧ Game.start {} = .ok g ∧
      w.install g = .ok v h ∧ h.store.isDefined (.text "COIN") ∧
      (Cli.inspect "w" false .warning (oneFile strayText)).stdout =
      "World: Untitled\n  - PLAYER (you)\n" := by
  have hload := load_oneFile strayText (by decide +kernel)
  have hshown : (Cli.inspect "w" false .warning (oneFile strayText)).exit = 0 ∧
      (Cli.inspect "w" false .warning (oneFile strayText)).stdout =
        "World: Untitled\n  - PLAYER (you)\n" := by
    unfold Cli.inspect
    rw [hload]
    decide +kernel
  obtain ⟨w, g, v, h, hw, hg, hinstall⟩ := exists_of_inspect hshown.1
  have hdefined : (match World.Spec.ofText "w" strayText, Game.start {} with
      | .ok w, .ok g => (after w.install g).store.isDefined (.text "COIN")
      | _, _ => false) = true := by decide +kernel
  rw [← hload, hw, hg] at hdefined
  simp only [after_of_ok hinstall] at hdefined
  exact ⟨w, g, v, h, hw, hg, hinstall, hdefined, hshown.2⟩

end Cli

end Fable
