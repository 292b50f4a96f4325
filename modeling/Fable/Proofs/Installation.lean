import Fable.Proofs.Descriptions

namespace Fable

namespace World

variable {os ps : List ObjectSpec} {o : ObjectSpec} {player : Value} {s : Store}

/-- A place that leads back to the object closes a cycle, whatever comes later. -/
theorem not_acyclic_append {p : String} (ho : o.id ∉ ps.map (·.id)) (hp : o.parent = some p)
    (hreach : (links ps).Reaches p o.id) (os : List ObjectSpec) :
    ¬ (links (ps ++ o :: os)).Acyclic := by
  intro hacyclic
  obtain ⟨n, hn⟩ := hreach
  have hlink : links (ps ++ o :: os) o.id = some p := by
    rw [List.append_cons]
    apply links_append
    rw [links_append_singleton ho, Function.update_self, hp]
  refine hacyclic o.id n ?_
  rw [Function.iterate_succ_apply, Links.step_some, hlink]
  exact Links.iterate_of_le (fun _ _ h ↦ links_append h _) hn

/-- One after the other, all objects are defined as they are described, unless a property cannot be
copied or there is a cycle among all of them. -/
theorem Installed.forM_install {g : Game} (h : Installed player ps g.store) (hp : player.hashable)
    (hids : ((ps ++ os).map (·.id)).Nodup)
    (hrefs : ∀ o ∈ os, Value.entriesReferBelow 1 o.properties) :
    (∃ g', os.forM ObjectSpec.install g = .ok () g' ∧ Installed player (ps ++ os) g'.store ∧
      ∀ o ∈ os, o.Copyable (.ofPlayer player)) ∨
    ∃ f g', os.forM ObjectSpec.install g = .error (.fault f) g' ∧
      ((∃ o ∈ os, (Store.ofPlayer player).opened o.properties = .error f) ∨
        (∃ e, f = .world e) ∧ ¬ (World.links (ps ++ os)).Acyclic) := by
  induction os generalizing ps g with
  | nil =>
    refine .inl ⟨g, rfl, ?_, by simp⟩
    rwa [List.append_nil]
  | cons o os ih =>
    have hforM : (o :: os).forM ObjectSpec.install = o.install >>= fun _ ↦
      os.forM ObjectSpec.install := rfl
    have ho : o.id ∉ ps.map (·.id) := by
      rw [List.map_append, List.map_cons] at hids
      exact fun hmem ↦ List.disjoint_of_nodup_append hids hmem List.mem_cons_self
    rw [hforM]
    rcases h.install_cases hp ho (hrefs o List.mem_cons_self) with
      ⟨f, hf, he⟩ | ⟨hc, ⟨p, hpar, hreach, e, g', he⟩ | ⟨g', he, hinst⟩⟩
    · exact .inr ⟨f, g, Runs.bind_of_error he _, .inl ⟨o, List.mem_cons_self, hf⟩⟩
    · -- The objects before lead from the place back to `o`, and those to come cannot undo that.
      exact .inr ⟨_, g', Runs.bind_of_error he _,
        .inr ⟨⟨e, rfl⟩, not_acyclic_append ho hpar hreach os⟩⟩
    · rw [List.append_cons] at hids ⊢
      rw [Runs.bind_of_ok he]
      rcases ih hinst hids fun q hq ↦ hrefs q (List.mem_cons_of_mem _ hq) with
        ⟨g'', he', hinst', hcs⟩ | ⟨f, g'', he', hf⟩
      · exact .inl ⟨g'', he', hinst', List.forall_mem_cons.2 ⟨hc, hcs⟩⟩
      · refine .inr ⟨f, g'', he', hf.imp_left ?_⟩
        rintro ⟨q, hq, hqf⟩
        exact ⟨q, List.mem_cons_of_mem _ hq, hqf⟩

theorem ObjectSpec.Copyable.isSome_outline? (h : o.Copyable s) : (o.outline? s).isSome := by
  obtain ⟨t, ht⟩ := h
  obtain ⟨r, hr⟩ := Store.exists_record (o.wellTyped_attributes t 0) (.text o.id) 0
  simp [outline?, ht, hr, Except.toOption]

theorem Installed.isDefined_iff (h : Installed player os s)
    (hc : ∀ o ∈ os, o.Copyable (.ofPlayer player)) (x : String) :
    s.isDefined (.text x) ↔ x ∈ os.map (·.id) ∨ Value.same player (.text x) := by
  rw [Store.isDefined, ← Option.isSome_map (f := Record.bare), h.records,
    Value.same_eq_of_isText player rfl, beq_iff_eq]
  cases hd : described? os (.text x) with
  | none =>
    have hx : x ∉ os.map (·.id) := by
      intro hx
      obtain ⟨o, ho, rfl⟩ := List.mem_map.1 hx
      exact described?_eq_none_iff.1 hd o ho rfl
    rw [show (Value.text x).string? = some x from rfl]
    by_cases hy : player.string? = some x <;> simp [hx, hy, Store.find?_ofPlayer_text]
  | some o =>
    have ho := List.mem_of_find?_eq_some hd
    have hx : x = o.id := by simpa [Value.string?] using List.find?_some hd
    simp only [(hc o ho).isSome_outline?, true_iff]
    exact .inl (List.mem_map.2 ⟨o, ho, hx.symm⟩)

def Spec.StartsSomewhere (w : Spec) (player : Value) : Prop :=
  ∀ room, w.start = some room → room ∈ w.objects.map (·.id) ∨ Value.same player (.text room)

def Spec.Copyable (w : Spec) (s : Store) : Prop := ∀ o ∈ w.objects, o.Copyable s

/-- Verbs are named by texts, and what the properties refer to is there before the world is. -/
structure Spec.Fits (w : Spec) (s : Store) : Prop where
  verbs : ∀ e ∈ w.verbs, e.1.isText
  properties : ∀ o ∈ w.objects, Value.entriesReferBelow s.made o.properties

/-- A loop that leaves the store alone does not matter for what only depends on the store. -/
theorem forM_bind_of_keeps {α β : Type} {P : EStateM.Result Exit Game β → Prop} {f : α → Play Unit}
    {xs : List α} {k : Unit → Play β} {g : Game}
    (hf : ∀ x ∈ xs, ∀ g, ∃ g', f x g = .ok () g' ∧ g'.store = g.store)
    (h : ∀ g', g'.store = g.store → P (k () g')) : P ((xs.forM f >>= k) g) := by
  have hrun : ∃ g', xs.forM f g = .ok () g' ∧ g'.store = g.store := by
    clear h
    induction xs generalizing g with
    | nil => exact ⟨g, rfl, rfl⟩
    | cons x xs ih =>
      have hforM : (x :: xs).forM f = f x >>= fun _ ↦ xs.forM f := rfl
      obtain ⟨g₁, he, hs⟩ := hf x List.mem_cons_self g
      obtain ⟨g₂, he', hs'⟩ := ih fun y hy ↦ hf y (List.mem_cons_of_mem _ hy)
      exact ⟨g₂, by rw [hforM, Runs.bind_of_ok he, he'], hs'.trans hs⟩
  obtain ⟨g', he, hs⟩ := hrun
  rw [Runs.bind_of_ok he]
  exact h g' hs

theorem registerVerb_keeps_store {verb : Value} (h : verb.isText) (tag : Value) (g : Game) :
    ∃ g', discard (Play.registerVerb verb tag) g = .ok () g' ∧ g'.store = g.store := by
  have hdemand : Play.demand verb g = .ok () g := by
    rw [Play.demand, if_pos (Value.hashable_of_isText h)]
    rfl
  have hrun : Play.registerVerb verb tag g = .ok (if tag.truthy then tag else verb)
      { g with verbs := g.verbs.insert verb (if tag.truthy then tag else verb) } := by
    rw [Play.registerVerb, Runs.bind_of_ok hdemand]
    rfl
  exact ⟨_, Runs.discard_of_ok hrun, rfl⟩

/-- The world has been installed as it is described, or else a property cannot be copied, or there
is a cycle, or the start is not there. -/
def Spec.Outcome (w : Spec) (player : Value) (r : EStateM.Result Exit Game Value) : Prop :=
  (∃ v g, r = .ok v g ∧ Installed player w.objects g.store ∧ w.Copyable (.ofPlayer player) ∧
    w.StartsSomewhere player) ∨
  ∃ f g, r = .error (.fault f) g ∧
    ((∃ o ∈ w.objects, (Store.ofPlayer player).opened o.properties = .error f) ∨
      (∃ e, f = .world e) ∧ ¬ ((links w.objects).Acyclic ∧ w.StartsSomewhere player))

theorem Spec.outcome_install {w : Spec} {g : Game} (hg : g.store = .ofPlayer player)
    (hp : player.hashable) (hfits : w.Fits g.store) (hids : (w.objects.map (·.id)).Nodup) :
    w.Outcome player (w.install g) := by
  rw [Spec.install]
  refine forM_bind_of_keeps (P := w.Outcome player) ?_ fun g₁ hs₁ ↦ ?_
  · exact fun e _ g ↦ ⟨{ g with globals := g.globals.insert e.1 e.2 }, rfl, rfl⟩
  refine forM_bind_of_keeps (P := w.Outcome player) ?_ fun g₂ hs₂ ↦ ?_
  · exact fun e he ↦ registerVerb_keeps_store (hfits.verbs e he) (.text e.2)
  have hfirst : Installed player [] g₂.store := by
    rw [hs₂, hs₁, hg]
    exact installed_nil
  rw [hg] at hfits
  rcases hfirst.forM_install hp hids hfits.properties with ⟨g₃, he, hinst, hc⟩ | ⟨f, g₃, he, hf⟩
  · let g₄ : Game := { g₃ with log := g₃.log.push (.installed w.title w.objects.length) }
    rw [Runs.bind_of_ok he]
    cases hstart : w.start with
    | none => exact .inl ⟨.none, g₄, rfl, hinst, hc, fun room hr ↦ by simp [hstart] at hr⟩
    | some room =>
      dsimp only
      rw [Runs.get_bind]
      have hiff := hinst.isDefined_iff hc room
      by_cases hd : g₃.store.isDefined (.text room)
      · rw [hd]
        refine .inl ⟨.text room, g₄, rfl, hinst, hc, fun room' hr ↦ ?_⟩
        rw [hstart] at hr
        exact Option.some.inj hr ▸ hiff.1 hd
      · rw [Bool.not_eq_true] at hd
        rw [hd]
        refine .inr ⟨_, g₃, rfl, .inr ⟨⟨_, rfl⟩, fun hs ↦ ?_⟩⟩
        have hdefined := hiff.2 (hs.2 room hstart)
        simp [hd] at hdefined
  · exact .inr ⟨f, g₃, Runs.bind_of_error he _, hf.imp_right (.imp_right (mt And.left))⟩

theorem ObjectSpec.Copyable.opened_ne (h : o.Copyable s) (f : Fault) :
    s.opened o.properties ≠ .error f := by
  obtain ⟨t, ht⟩ := h
  simp [ht]

/-- Nothing but commands among keys and members can keep properties from being copied in a new
game. -/
theorem ObjectSpec.copyable_of_namedPlainly (hp : player.hashable)
    (h : Value.entriesNamedPlainly o.properties) : o.Copyable (.ofPlayer player) := by
  refine Store.exists_opened (fun k r hr p hmem ↦ ?_) h
  obtain rfl : r = .you player := List.mem_singleton.1 (List.mem_of_find?_eq_some hr)
  exact Store.namedPlainly_parts_you hp p hmem

def Spec.Installs (w : Spec) (g : Game) : Prop := ∃ v g', w.install g = .ok v g'

section

variable {w : Spec} {g : Game} (hg : g.store = .ofPlayer player) (hp : player.hashable)
  (hfits : w.Fits g.store) (hids : (w.objects.map (·.id)).Nodup)

include hg hp hfits hids

theorem Spec.installs_iff :
    w.Installs g ↔ (links w.objects).Acyclic ∧ w.StartsSomewhere player ∧ w.Copyable g.store := by
  rw [hg]
  rcases Spec.outcome_install hg hp hfits hids with ⟨v, g', he, hinst, hc, hs⟩ | ⟨f, g', he, hf⟩
  · have ha : (links w.objects).Acyclic := hinst.links ▸ hinst.nested.acyclic
    exact iff_of_true ⟨v, g', he⟩ ⟨ha, hs, hc⟩
  · refine iff_of_false (by simp [Spec.Installs, he]) ?_
    rintro ⟨ha, hs, hc⟩
    rcases hf with ⟨o, ho, hof⟩ | ⟨-, hn⟩
    · exact (hc o ho).opened_ne f hof
    · exact hn ⟨ha, hs⟩

theorem Spec.exists_problem (hc : w.Copyable g.store) {e : Exit} {h : Game}
    (he : w.install g = .error e h) : ∃ p, e = .fault (.world p) := by
  rw [hg] at hc
  rcases Spec.outcome_install hg hp hfits hids with ⟨v, g', hok, -⟩ | ⟨f, g', he', hf⟩
  · simp [he] at hok
  · obtain ⟨rfl, rfl⟩ : e = .fault f ∧ h = g' := by simpa [he] using he'
    rcases hf with ⟨o, ho, hof⟩ | ⟨⟨p, rfl⟩, -⟩
    · exact absurd hof ((hc o ho).opened_ne f)
    · exact ⟨p, rfl⟩

theorem Spec.installed_of_ok {v : Value} {h : Game} (hok : w.install g = .ok v h) :
    Installed player w.objects h.store := by
  rcases Spec.outcome_install hg hp hfits hids with ⟨v', g', hok', hinst, -⟩ | ⟨f, g', he, -⟩
  · obtain ⟨rfl, rfl⟩ : v = v' ∧ h = g' := by simpa [hok] using hok'
    exact hinst
  · simp [hok] at he

end

/-- A world is installed exactly if no object is put inside itself, the start is there and the
properties can be copied, as they always can if no command is among the keys and members in them. In
whatever order the objects are listed, the answer is the same and all records say the same. Where
copies do not fail, it is the world that is at fault. -/
theorem install_order_irrelevant {config : Config} {g : Game}
    (hg : Game.start config = .ok g) {w : Spec} (hfits : w.Fits g.store)
    (hids : (w.objects.map (·.id)).Nodup) {os : List ObjectSpec} (hos : os.Perm w.objects) :
    (w.Installs g ↔
      (links w.objects).Acyclic ∧ w.StartsSomewhere config.playerId ∧ w.Copyable g.store) ∧
    (({ w with objects := os } : Spec).Installs g ↔ w.Installs g) ∧
    ((∀ o ∈ w.objects, Value.entriesNamedPlainly o.properties) → w.Copyable g.store) ∧
    (w.Copyable g.store → ∀ e h,
      w.install g = .error e h ∨ ({ w with objects := os } : Spec).install g = .error e h →
        ∃ p, e = .fault (.world p)) ∧
    ∀ v h v' h', w.install g = .ok v h → ({ w with objects := os } : Spec).install g = .ok v' h' →
      ∀ x, (h.store.find? x).map Record.bare = (h'.store.find? x).map Record.bare := by
  obtain ⟨hstore, hp⟩ := Game.store_start hg
  have hfits' : Spec.Fits { w with objects := os } g.store :=
    ⟨hfits.verbs, fun o ho ↦ hfits.properties o (hos.mem_iff.1 ho)⟩
  have hids' : (os.map (·.id)).Nodup := (hos.map _).nodup_iff.2 hids
  have hdescribed := described?_perm hids hos
  have hlinks : links os = links w.objects := by
    unfold links
    rw [hdescribed]
  have hstarts : Spec.StartsSomewhere { w with objects := os } config.playerId ↔
      w.StartsSomewhere config.playerId := by
    simp only [Spec.StartsSomewhere, (hos.map _).mem_iff]
  have hcopy : Spec.Copyable { w with objects := os } g.store ↔ w.Copyable g.store :=
    forall_congr' fun o ↦ by simp only [hos.mem_iff]
  refine ⟨Spec.installs_iff hstore hp hfits hids, ?_, fun h o ho ↦ ?_, ?_, ?_⟩
  · rw [Spec.installs_iff hstore hp hfits hids, Spec.installs_iff hstore hp hfits' hids',
      hlinks, hstarts, hcopy]
  · rw [hstore]
    exact ObjectSpec.copyable_of_namedPlainly hp (h o ho)
  · rintro hc e h (he | he)
    · exact Spec.exists_problem hstore hp hfits hids hc he
    · exact Spec.exists_problem hstore hp hfits' hids' (hcopy.2 hc) he
  · intro v h v' h' hok hok' x
    rw [(Spec.installed_of_ok hstore hp hfits hids hok).records,
      (Spec.installed_of_ok hstore hp hfits' hids' hok').records, hdescribed]

def ObjectSpec.thing (id : String) (parent : Option String) : ObjectSpec where
  id
  parent
  desc := none
  ldesc := none
  fdesc := none
  synonyms := []
  adjectives := []
  flags := []
  size := .int 0
  action := none
  properties := []

def unroomed : Spec where
  title := "Unroomed"
  start := some "PLAYER"
  globals := []
  verbs := []
  objects := [.thing "COIN" (some "BOX"), .thing "PLAYER" (some "ROOM"), .thing "BOX" (some "ROOM")]

theorem nodup_unroomed : (unroomed.objects.map (·.id)).Nodup := by decide +kernel

theorem acyclic_unroomed : (links unroomed.objects).Acyclic := by
  let rank : String → ℕ := fun a ↦ if a = "COIN" then 2 else if a = "ROOM" then 0 else 1
  refine Links.acyclic_of_decreasing rank fun a b hab ↦ ?_
  obtain ⟨o, ho, hb⟩ := Option.bind_eq_some_iff.1 hab
  obtain ⟨hmem, hid⟩ := (described?_eq_some_iff nodup_unroomed).1 ho
  obtain rfl : a = o.id := Option.some.inj hid
  simp only [unroomed, List.mem_cons, List.not_mem_nil, or_false] at hmem
  rcases hmem with rfl | rfl | rfl <;> (obtain rfl := Option.some.inj hb; decide)

theorem unroomed_installs_in_both_orders :
    (unroomed.objects.map (·.id)).Nodup ∧ ∃ g, Game.start {} = .ok g ∧ unroomed.Fits g.store ∧
      unroomed.Installs g ∧
      ({ unroomed with objects := unroomed.objects.reverse } : Spec).Installs g := by
  obtain ⟨g, hg⟩ := Game.exists_start {} rfl rfl
  have hfits : unroomed.Fits g.store := by
    refine ⟨by simp [unroomed], ?_⟩
    simp [unroomed, ObjectSpec.thing, Value.entriesReferBelow]
  have h := install_order_irrelevant hg hfits nodup_unroomed (List.reverse_perm _)
  have hc : unroomed.Copyable g.store := by
    refine h.2.2.1 ?_
    simp [unroomed, ObjectSpec.thing, Value.entriesNamedPlainly]
  have hstart : unroomed.StartsSomewhere (.text "PLAYER") := by
    rintro room ⟨⟩
    exact .inr (by decide +kernel)
  have hinst := h.1.2 ⟨acyclic_unroomed, hstart, hc⟩
  exact ⟨nodup_unroomed, g, hg, hfits, hinst, h.2.1.2 hinst⟩

def commanded : Spec where
  title := "Commanded"
  start := none
  globals := []
  verbs := []
  objects := [{ ObjectSpec.thing "ROOM" none with
    properties := [(.text "P", .dict [(.command (.text "LOOK") .none .none, .int 7)])] }]

/-- Nothing is put inside itself, and no start is named, but the world cannot be installed, and it
is not the world that is said to be at fault. -/
theorem commanded_fails_by_mismatch :
    (commanded.objects.map (·.id)).Nodup ∧ (links commanded.objects).Acyclic ∧
    commanded.start = none ∧
      ∃ g, Game.start {} = .ok g ∧ commanded.Fits g.store ∧
        ∃ h, commanded.install g = .error (.fault .mismatch) h := by
  have hlinks : links commanded.objects = fun _ ↦ none := by
    funext a
    simp [links, described?, commanded, ObjectSpec.thing]
  have hacyclic : (links commanded.objects).Acyclic := hlinks ▸ Links.acyclic_empty
  obtain ⟨g, hg⟩ := Game.exists_start {} rfl rfl
  obtain ⟨hstore, hp⟩ := Game.store_start hg
  have hfits : commanded.Fits g.store := by
    refine ⟨by simp [commanded], ?_⟩
    simp [commanded, Value.entriesReferBelow, Value.refersBelow]
  have hopened : ∀ o ∈ commanded.objects,
      (Store.ofPlayer (.text "PLAYER")).opened o.properties = .error .mismatch := by
    intro o ho
    obtain rfl := List.mem_singleton.1 ho
    rfl
  have hids : (commanded.objects.map (·.id)).Nodup := by decide +kernel
  refine ⟨hids, hacyclic, rfl, g, hg, hfits, ?_⟩
  rcases Spec.outcome_install hstore hp hfits hids with
    ⟨v, g', -, -, hc, -⟩ | ⟨f, g', he, ⟨o, ho, hf⟩ | ⟨-, hn⟩⟩
  · exact absurd (hopened _ (List.mem_singleton.2 rfl))
      ((hc _ (List.mem_singleton.2 rfl)).opened_ne _)
  · rw [hopened o ho] at hf
    exact ⟨g', Except.error.inj hf ▸ he⟩
  · exact absurd ⟨hacyclic, fun room hr ↦ by simp [commanded] at hr⟩ hn

end World

end Fable
