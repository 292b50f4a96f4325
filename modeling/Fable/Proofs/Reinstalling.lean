import Fable.Proofs.Inspection
import Fable.Proofs.WholeTexts

namespace Fable

namespace Value

theorem eq_text_of_bare {v : Value} {x : String} (h : v.bare = .text x) : v = .text x := by
  cases v <;> simp only [bare, reduceCtorEq] at h
  rw [h]

theorem eq_texts_of_bare {ks : List Value} {names : List String}
    (h : ks.map bare = names.map .text) :
    ks = names.map .text := by
  induction ks generalizing names with
  | nil =>
    cases names with
    | nil => rfl
    | cons x names => cases h
  | cons k ks ih =>
    cases names with
    | nil => cases h
    | cons x names =>
      obtain ⟨hk, hks⟩ := List.cons.inj h
      rw [eq_text_of_bare hk, ih hks, List.map_cons]

theorem keys_of_bareEntries {es fs : List (Value × Value)} {names : List String}
    (h : bareEntries es = bareEntries fs) (hfs : Table.keys fs = names.map .text) :
    Table.keys es = names.map .text := by
  have hkeys (t : List (Value × Value)) : (bareEntries t).map Prod.fst =
      (Table.keys t).map bare := by
    rw [bareEntries_eq_map, Table.keys, List.map_map, List.map_map]
    rfl
  have hbare : (Table.keys es).map bare = (names.map .text).map bare := by
    rw [← hkeys, h, hkeys, hfs]
  refine eq_texts_of_bare (hbare.trans ?_)
  rw [List.map_map]
  rfl

end Value

theorem Store.keys_openedEntries {record : Opening} {around : List Value}
    {es fs : List (Value × Value)} (hes : ∀ e ∈ es, ∃ x, e.1 = .text x)
    (h : openedEntries record around es = .ok fs) :
    Table.keys fs = Table.keys es := by
  induction es generalizing fs with
  | nil =>
    cases h
    rfl
  | cons e es ih =>
    obtain ⟨k, v⟩ := e
    obtain ⟨x, rfl⟩ := hes _ List.mem_cons_self
    rw [openedEntries] at h
    obtain ⟨key, hkey, h⟩ := exists_of_bind_ok h
    cases hkey
    obtain ⟨w, hw, h⟩ := exists_of_bind_ok h
    rw [if_pos (show (Value.text x).hashable = true from rfl)] at h
    obtain ⟨gs, hgs, h⟩ := exists_of_bind_ok h
    cases h
    have hrest := ih (fun f hf ↦ hes f (List.mem_cons_of_mem _ hf)) hgs
    simpa [Table.keys] using hrest

namespace World

open Runs

variable {floats : Bool} {o : ObjectSpec} {os : List ObjectSpec} {s : Store}

theorem ObjectSpec.CopiedTo.named {es : List (Value × Value)} (h : o.CopiedTo s es)
    (ho : o.properties.Named) :
    Table.Named es := by
  obtain ⟨t, ht, hes⟩ := h.exists_opened
  have hopened := Store.keys_openedEntries (fun e he ↦ ho.exists_text he) ht
  obtain ⟨names, hnodup, hkeys⟩ := ho
  exact ⟨names, hnodup, Value.keys_of_bareEntries hes (hopened.trans hkeys)⟩

abbrev Listed (os : List ObjectSpec) (t : Table Record) : Prop :=
  List.Forall₂ (fun o e ↦ e.1 = .text o.id ∧ o.Shown e.2) os t

theorem Listed.views {t : Table Record} (h : Listed os t) (s : Store) :
    t.entries.mapM s.view = .ok (os.map ObjectSpec.exported) := by
  induction h with
  | nil => rfl
  | cons he _ ih =>
    rw [Table.entries, List.map_cons, List.mapM_cons, Store.view, he.2.view, ← Table.entries, ih]
    rfl

theorem Listed.find?_parent {t : Table Record} (h : Listed os t) (a : String) :
    (t.find? (.text a)).bind (·.parent.string?) = links os a := by
  rw [links, described?]
  induction h with
  | nil => rfl
  | @cons o e os es he _ ih =>
    have hsame : (a == o.id) = (o.id == a) := Bool.beq_comm
    rw [Value.string?] at ih
    rw [Table.find?_cons, List.find?_cons, he.1, Value.alike_text, Value.same_text, Value.string?,
      Option.some_beq_some, hsame]
    cases o.id == a with
    | true => simp [he.2.parent, string?_optional]
    | false => simpa using ih

structure Holds (os : List ObjectSpec) (s : Store) : Prop where
  listed : Listed os s.records
  canonical : ∀ o ∈ os, o.Canonical
  ids : (os.map (·.id)).Nodup

theorem Holds.snapshot (h : Holds os s) : s.snapshot = .ok (exportedWorld os) := by
  rw [Store.snapshot, Store.views, h.listed.views]
  rfl

theorem Holds.links_eq (h : Holds os s) : s.links = links os := by
  funext a
  rw [← h.listed.find?_parent, Store.links, Store.parent, Store.find?_eq_lookup? _ rfl,
    Store.lookup?]
  cases s.records.find? (.text a) <;> rfl

def put (os : List ObjectSpec) (o : ObjectSpec) : List ObjectSpec :=
  match os with
  | [] => [o]
  | p :: os => if p.id = o.id then o :: os else p :: put os o

theorem put_of_notMem (h : o.id ∉ os.map (·.id)) : put os o = os ++ [o] := by
  induction os with
  | nil => rfl
  | cons p os ih =>
    obtain ⟨hp, hos⟩ : o.id ≠ p.id ∧ o.id ∉ os.map (·.id) := by simpa using h
    rw [put, if_neg fun h ↦ hp h.symm, ih hos, List.cons_append]

theorem map_id_put (os : List ObjectSpec) (o : ObjectSpec) :
    (put os o).map (·.id) = if o.id ∈ os.map (·.id) then os.map (·.id)
    else os.map (·.id) ++ [o.id] := by
  induction os with
  | nil => rfl
  | cons p os ih =>
    rw [put]
    by_cases hp : p.id = o.id
    · simp [hp]
    · have hp' : o.id ≠ p.id := fun h ↦ hp h.symm
      rw [if_neg hp, List.map_cons, ih]
      by_cases ho : o.id ∈ os.map (·.id) <;> simp [ho, hp']

theorem of_mem_put {p : ObjectSpec} (h : p ∈ put os o) : p = o ∨ p ∈ os := by
  induction os with
  | nil => exact .inl (List.mem_singleton.1 h)
  | cons q os ih =>
    rw [put] at h
    split at h
    · exact (List.mem_cons.1 h).imp_right (List.mem_cons_of_mem _)
    · rcases List.mem_cons.1 h with rfl | h
      · exact .inr List.mem_cons_self
      · exact (ih h).imp_right (List.mem_cons_of_mem _)

theorem Listed.put {t : Table Record} (h : Listed os t) {r : Record} (hr : o.Shown r) :
    Listed (put os o) (t.insert (.text o.id) r) := by
  induction h with
  | nil => exact .cons ⟨rfl, hr⟩ .nil
  | @cons p e os es he hrest ih =>
    rw [World.put, Table.insert, he.1, Value.alike_text, Value.same_text]
    by_cases hp : p.id = o.id
    · rw [if_pos hp, if_pos (by simpa using hp)]
      exact .cons ⟨congrArg _ hp, hr⟩ hrest
    · rw [if_neg hp, if_neg (by simpa using hp)]
      exact .cons he ih

theorem Holds.put (h : Holds os s) (ho : o.Canonical) {r : Record} (hr : o.Shown r) {t : Store}
    (ht : t.records = s.records.insert (.text o.id) r) : Holds (put os o) t where
  listed := ht ▸ h.listed.put hr
  canonical p hp := by
    rcases of_mem_put hp with rfl | hp
    · exact ho
    · exact h.canonical p hp
  ids := by
    rw [map_id_put]
    split
    · exact h.ids
    · next hid => exact h.ids.append (List.nodup_singleton _) (by simpa using hid)

/-- A definition is refused, or it makes a record that shows the object. -/
theorem define_shown (o : ObjectSpec) (s : Store) (es : List (Value × Value)) (k : Nat) :
    (∃ f, s.refusal? (.text o.id) (o.attributes (.dict es k)) = some f ∧
      Store.define (.text o.id) (o.attributes (.dict es k)) s = .error f s) ∨
    ∃ v t r, Store.define (.text o.id) (o.attributes (.dict es k)) s = .ok v t ∧
      t.records = s.records.insert (.text o.id) r ∧ (o.installedAs es).Shown r := by
  rcases Store.define_cases (show (Value.text o.id).isText from rfl) (o.wellTyped_attributes es k) s
      with
    ⟨f, hf, he⟩ | ⟨r, hr, he, -⟩
  · exact .inl ⟨f, hf, he⟩
  · refine .inr ⟨_, _, r, he, ?_, ObjectSpec.shown_of_record hr⟩
    rw [Store.enter, Store.attach, Store.leave_records, (Store.record_place hr).1]

def ObjectSpec.you : ObjectSpec := { ObjectSpec.thing "PLAYER" none with desc := some "you" }

theorem holds_ofPlayer : Holds [.you] (.ofPlayer (.text "PLAYER")) where
  listed := .cons ⟨rfl, rfl, rfl, rfl, rfl, rfl, rfl, rfl, rfl, rfl, rfl, rfl⟩ .nil
  canonical o ho := by
    obtain rfl := List.mem_singleton.1 ho
    exact ⟨.nil, ⟨0, rfl⟩, Table.named_nil⟩
  ids := List.nodup_singleton _

structure Stocks (w : Spec) (os : List ObjectSpec) (s : Store) : Prop extends Holds os s where
  player : (os.map (·.id)).head? = some "PLAYER"
  copied : ∀ p ∈ os, p.properties = [] ∨ ∃ o ∈ w.objects, ∃ t, o.CopiedTo t p.properties

theorem head?_map_id_put (h : (os.map (·.id)).head? = some "PLAYER") (o : ObjectSpec) :
    ((put os o).map (·.id)).head? = some "PLAYER" := by
  rw [map_id_put]
  split
  · exact h
  · rw [List.head?_append, h]
    rfl

theorem Stocks.put {w : Spec} (h : Stocks w os s) (ho : o ∈ w.objects)
    (hsize : ∃ n, o.size = .int n) (hproperties : o.properties.Named) {es : List (Value × Value)}
    (hes : o.CopiedTo s es) {r : Record} (hr : (o.installedAs es).Shown r) {t : Store}
    (ht : t.records = s.records.insert (.text o.id) r) :
    Stocks w (World.put os (o.installedAs es)) t where
  toHolds := h.toHolds.put (ObjectSpec.canonical_installedAs hsize (hes.named hproperties)) hr ht
  player := head?_map_id_put h.player _
  copied p hp := by
    rcases of_mem_put hp with rfl | hp
    · exact .inr ⟨o, ho, s, hes⟩
    · exact h.copied p hp

theorem exists_stocks {w : Spec} (hw : ∀ o ∈ w.objects, (∃ n, o.size = .int n) ∧ o.properties.Named)
    {g h : Game} {v : Value} (hg : g.store = .ofPlayer (.text "PLAYER"))
    (hinstall : w.install g = .ok v h) :
    ∃ os, Stocks w os h.store := by
  have hkeeps : Play.Obeys (Game.Keeps fun s ↦ ∃ os, Stocks w os s) w.install := by
    refine keeps_install fun o ho ↦ keeps_installObject fun s es k hes ⟨os, hos⟩ ↦ ?_
    rcases define_shown o s es k with ⟨f, -, he⟩ | ⟨x, t, r, he, ht, hr⟩
    · rw [after_of_error he]
      exact ⟨os, hos⟩
    · rw [after_of_ok he]
      exact ⟨_, hos.put ho (hw o ho).1 (hw o ho).2 hes hr ht⟩
  have hafter := hkeeps g
  rw [after_of_ok hinstall] at hafter
  refine hafter ⟨[.you], ?_, rfl, ?_⟩
  · rw [hg]
    exact holds_ofPlayer
  · intro p hp
    obtain rfl := List.mem_singleton.1 hp
    exact .inl rfl

def Kept (t : Table Value) : Prop :=
  ∀ s : Store, ∃ t', s.opened t = .ok t' ∧ Value.bareEntries t' = Value.bareEntries t

def ObjectSpec.bare (o : ObjectSpec) : ObjectSpec :=
  { o with properties := Value.bareEntries o.properties }

theorem links_map_bare (os : List ObjectSpec) : links (os.map ObjectSpec.bare) = links os := by
  funext a
  rw [links, described?, List.find?_map, links, described?, Option.bind_map]
  rfl

theorem map_id_of_bare {ps : List ObjectSpec}
    (h : ps.map ObjectSpec.bare = os.map ObjectSpec.bare) :
    ps.map (·.id) = os.map (·.id) := by
  have hids := congrArg (List.map (·.id)) h
  rwa [List.map_map, List.map_map] at hids

theorem ObjectSpec.id_of_bare {p : ObjectSpec} (h : p.bare = o.bare) : p.id = o.id := by
  have hid : p.bare.id = o.bare.id := by rw [h]
  exact hid

theorem isJson_optional (p : Option String) : (optional p).IsJson floats := by
  cases p with
  | none => exact .none
  | some x => exact .text x

theorem isJson_texts (floats : Bool) (ss : List String) : (texts ss).IsJson floats := by
  refine .list (List.forall_mem_map.2 fun x _ ↦ .text x)

theorem ObjectSpec.Canonical.bare_exported (h : o.Canonical) :
    o.exported.bare = o.bare.exported := by
  obtain ⟨n, hn⟩ := h.size
  have hoptional (p : Option String) : (optional p).bare = optional p := by cases p <;> rfl
  have htexts (ss : List String) : (texts ss).bare = texts ss := (isJson_texts false ss).bare_eq
  simp only [exported, ObjectSpec.bare, Value.bare, Value.bareEntries, hoptional, htexts, hn]

theorem Holds.bare_exportedWorld (h : Holds os s) :
    (exportedWorld os).bare = exportedWorld (os.map ObjectSpec.bare) := by
  have hobjects : (os.map ObjectSpec.exported).map Value.bare =
      (os.map ObjectSpec.bare).map ObjectSpec.exported := by
    rw [List.map_map, List.map_map]
    exact List.map_congr_left fun o ho ↦ (h.canonical o ho).bare_exported
  simp only [exportedWorld, Value.bare, Value.bareEntries, Value.bareItems_eq_map, hobjects]

/-- An object is installed again, unless the objects before lead from its place back to it. -/
theorem reinstall_object {g : Game} {ps rest : List ObjectSpec} (hr : g.store.Reachable)
    (hlinks : g.store.links = links ps) (ho : o.Canonical) (hkept : Kept o.properties)
    (hid : o.id ∉ ps.map (·.id)) (hacyclic : (links (ps ++ o :: rest)).Acyclic) :
    ∃ g' o', o.install g = .ok () g' ∧ g'.store.Reachable ∧ o'.bare = o.bare ∧
      ∀ os, Holds os g.store → Holds (put os o') g'.store := by
  obtain ⟨t, ht, hbare⟩ := hkept g.store
  obtain ⟨es, k, hv, hes⟩ := Value.exists_eq_dict_of_bare (Value.bare_stamped g.stamp (.dict t))
  have hcopied : o.CopiedTo g.store es := ⟨t, g.stamp, k, ht, hv⟩
  rcases define_shown o g.store es k with ⟨f, hf, -⟩ | ⟨x, s, r, he, hs, hshown⟩
  · obtain ⟨p, hp, -, hreach⟩ :=
      hr.nested.refusal?_eq_some rfl (isPlace_optional o.parent) rfl rfl hf
    rw [show (o.attributes (.dict es k)).parent = optional o.parent from rfl, string?_optional]
      at hp
    exact absurd hacyclic (not_acyclic_append hid hp (hlinks ▸ hreach) rest)
  · have hinstall := o.install_of_ok ht hv he
    have hreachable := reaching_installObject o g
    rw [after_of_ok hinstall] at hreachable
    have hcanonical := ObjectSpec.canonical_installedAs ho.size (hcopied.named ho.properties)
    refine ⟨_, o.installedAs es, hinstall, hreachable hr, ?_,
      fun os hos ↦ hos.put hcanonical hshown hs⟩
    rw [ho.installedAs_eq, ObjectSpec.bare, ObjectSpec.bare, hes, hbare]

theorem reinstall_objects {rest : List ObjectSpec}
    (hrest : ∀ o ∈ rest, o.Canonical ∧ Kept o.properties) {g : Game} (ps : List ObjectSpec)
    {ps' : List ObjectSpec} (hr : g.store.Reachable) (hps' : Holds ps' g.store)
    (hps : ps'.map ObjectSpec.bare = ps.map ObjectSpec.bare)
    (hids : ((ps ++ rest).map (·.id)).Nodup) (hacyclic : (links (ps ++ rest)).Acyclic) :
    ∃ g' os', rest.forM ObjectSpec.install g = .ok () g' ∧ Holds os' g'.store ∧
      os'.map ObjectSpec.bare = (ps ++ rest).map ObjectSpec.bare := by
  induction rest generalizing g ps ps' with
  | nil => exact ⟨g, ps', rfl, hps', by simpa using hps⟩
  | cons o rest ih =>
    have hid : o.id ∉ ps.map (·.id) := by
      rw [List.map_append] at hids
      exact fun hmem ↦ List.disjoint_of_nodup_append hids hmem List.mem_cons_self
    have hlinks : g.store.links = links ps := by
      rw [hps'.links_eq, ← links_map_bare ps', hps, links_map_bare]
    obtain ⟨hcanonical, hkept⟩ := hrest o List.mem_cons_self
    obtain ⟨g₁, o', hinstall, hr₁, hbare, hput⟩ :=
      reinstall_object hr hlinks hcanonical hkept hid hacyclic
    have hid' : o'.id ∉ ps'.map (·.id) := by
      rw [map_id_of_bare hps, ObjectSpec.id_of_bare hbare]
      exact hid
    rw [List.append_cons] at hids hacyclic ⊢
    have hnext := hput ps' hps'
    rw [put_of_notMem hid'] at hnext
    obtain ⟨g₂, os', hloop, hos', hsame⟩ :=
      ih (fun p hp ↦ hrest p (List.mem_cons_of_mem _ hp)) (ps ++ [o]) hr₁
        hnext (by simp [hps, hbare])
        hids hacyclic
    refine ⟨g₂, os', ?_, hos', hsame⟩
    exact (bind_of_ok hinstall _).trans hloop

/-- What is shown of a game's objects can be put into another game, where the same is shown of
them. -/
theorem reinstall {w : Spec} (hos : Stocks w os s) (hr : s.Reachable)
    (hkept : ∀ o ∈ os, Kept o.properties) {g : Game} (hg : g.store = .ofPlayer (.text "PLAYER"))
    (w' : Spec) (hw' : w'.objects = os) (hglobals : w'.globals = []) (hverbs : w'.verbs = [])
    (hstart : w'.start = none) :
    ∃ v h os', w'.install g = .ok v h ∧ Holds os' h.store ∧
      os'.map ObjectSpec.bare = os.map ObjectSpec.bare := by
  have hacyclic : (links os).Acyclic := hos.links_eq ▸ hr.nested.acyclic
  have hobjects : ∃ h os', os.forM ObjectSpec.install g = .ok () h ∧ Holds os' h.store ∧
      os'.map ObjectSpec.bare = os.map ObjectSpec.bare := by
    cases os with
    | nil => cases hos.player
    | cons o rest =>
      have hplayer : o.id = "PLAYER" := Option.some.inj hos.player
      have hg' : Holds [.you] g.store := hg ▸ holds_ofPlayer
      have hlinks : g.store.links = links [] := by
        rw [hg'.links_eq]
        funext a
        by_cases ha : a = "PLAYER" <;>
          simp [links, described?, Value.string?, ObjectSpec.you, ObjectSpec.thing, ha]
      obtain ⟨g₁, o', hinstall, hr₁, hbare, hput⟩ :=
        reinstall_object (hg ▸ reachable_ofPlayer rfl) hlinks
        (hos.canonical o List.mem_cons_self) (hkept o List.mem_cons_self) List.not_mem_nil hacyclic
      have hid : ObjectSpec.you.id = o'.id := ((ObjectSpec.id_of_bare hbare).trans hplayer).symm
      have hfirst := hput [.you] hg'
      rw [put, if_pos hid] at hfirst
      obtain ⟨h, os', hloop, hos', hsame⟩ := reinstall_objects
        (fun p hp ↦ ⟨hos.canonical p (List.mem_cons_of_mem _ hp),
          hkept p (List.mem_cons_of_mem _ hp)⟩)
        [o] hr₁ hfirst (by simp [hbare]) hos.ids hacyclic
      exact ⟨h, os', (bind_of_ok hinstall _).trans hloop, hos', hsame⟩
  obtain ⟨h, os', hloop, hos', hsame⟩ := hobjects
  refine ⟨.none, { h with log := h.log.push (.installed w'.title w'.objects.length) }, os', ?_,
    hos', hsame⟩
  have hnone (f : Value × Value → Play Unit) : ([] : Table Value).forM f g = .ok () g := rfl
  have hnone' (f : Value × String → Play Unit) : ([] : Table String).forM f g = .ok () g := rfl
  rw [Spec.install, hglobals, hverbs, hstart, hw', bind_of_ok (hnone _),
    bind_of_ok (hnone' _), bind_of_ok hloop]
  rfl

end World

end Fable
