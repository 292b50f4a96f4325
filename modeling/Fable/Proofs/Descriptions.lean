import Fable.Proofs.NewGame
import Fable.World.Spec

namespace Fable

namespace World

def described? (os : List ObjectSpec) (x : Value) : Option ObjectSpec :=
  os.find? fun o ↦ x.string? == some o.id

def links (os : List ObjectSpec) : Links := fun a ↦ (described? os (.text a)).bind (·.parent)

variable {os ps : List ObjectSpec} {o : ObjectSpec}

theorem described?_eq_none_iff {x : Value} :
    described? os x = none ↔ ∀ o ∈ os, x.string? ≠ some o.id := by
  simp [described?]

theorem described?_append (ps os : List ObjectSpec) (x : Value) :
    described? (ps ++ os) x = (described? ps x).or (described? os x) :=
  List.find?_append

theorem described?_append_singleton (ho : o.id ∉ ps.map (·.id)) (x : Value) :
    described? (ps ++ [o]) x = if x.string? = some o.id then some o else described? ps x := by
  rw [described?_append]
  by_cases hx : x.string? = some o.id
  · have hp : described? ps x = none := by
      refine described?_eq_none_iff.2 fun p hp he ↦ ho ?_
      exact List.mem_map.2 ⟨p, hp, Option.some.inj (he.symm.trans hx)⟩
    rw [hp, if_pos hx, Option.none_or]
    simp [described?, hx]
  · simp [hx, described?]

theorem links_append_singleton (ho : o.id ∉ ps.map (·.id)) :
    links (ps ++ [o]) = Function.update (links ps) o.id o.parent := by
  funext a
  rw [links, described?_append_singleton ho]
  by_cases ha : a = o.id
  · subst ha
    simp [Value.string?]
  · have hne : (Value.text a).string? ≠ some o.id := fun he ↦ ha (Option.some.inj he)
    rw [if_neg hne, Function.update_of_ne ha]
    rfl

theorem links_append {a b : String} (h : links ps a = some b) (os : List ObjectSpec) :
    links (ps ++ os) a = some b := by
  rw [links] at h ⊢
  obtain ⟨p, hp, hb⟩ := Option.bind_eq_some_iff.1 h
  rw [described?_append, hp]
  exact hb

theorem described?_eq_some_iff (hos : (os.map (·.id)).Nodup) {x : Value} :
    described? os x = some o ↔ o ∈ os ∧ x.string? = some o.id := by
  constructor
  · intro h
    exact ⟨List.mem_of_find?_eq_some h, by simpa using List.find?_some h⟩
  · rintro ⟨ho, hx⟩
    cases h : described? os x with
    | none => exact absurd hx (described?_eq_none_iff.1 h o ho)
    | some p =>
      have hp : x.string? = some p.id := by simpa using List.find?_some h
      have hid : p.id = o.id := Option.some.inj (hp.symm.trans hx)
      rw [List.inj_on_of_nodup_map hos (List.mem_of_find?_eq_some h) ho hid]

theorem described?_perm (hos : (os.map (·.id)).Nodup) (h : ps.Perm os) :
    described? ps = described? os := by
  have hps : (ps.map (·.id)).Nodup := (h.map _).nodup_iff.2 hos
  funext x
  ext o
  rw [described?_eq_some_iff hps, described?_eq_some_iff hos, h.mem_iff]

def ObjectSpec.Copyable (o : ObjectSpec) (s : Store) : Prop := ∃ t, s.opened o.properties = .ok t

def ObjectSpec.outline? (o : ObjectSpec) (s : Store) : Option Record :=
  match s.opened o.properties with
  | .ok t => ((o.attributes (.dict t)).record (.text o.id) 0).toOption.map Record.bare
  | .error _ => none

theorem collect_texts (seen : Members) (ss : List String) :
    ∃ m, Value.collect seen (ss.map .text) = .ok m := by
  induction ss generalizing seen with
  | nil => exact ⟨seen, rfl⟩
  | cons s ss ih => exact ih (seen.insert (.text s))

theorem toFlags_texts (ss : List String) : ∃ m, (texts ss).toFlags = .ok m := by
  unfold Value.toFlags
  split
  · exact collect_texts {} ss
  · exact ⟨{}, rfl⟩

theorem isPlace_optional (p : Option String) : (optional p).IsPlace := by
  cases p with
  | none => exact Value.isPlace_none
  | some p => exact .of_isText rfl

theorem string?_optional (p : Option String) : (optional p).string? = p := by
  cases p <;> rfl

theorem ObjectSpec.wellTyped_attributes (o : ObjectSpec) (es : List (Value × Value)) (k : Nat) :
    (o.attributes (.dict es k)).WellTyped where
  parent := isPlace_optional o.parent
  flags := toFlags_texts o.flags
  properties := ⟨es, rfl⟩

theorem ObjectSpec.outline?_eq {s : Store} {t : Table Value} {es : List (Value × Value)} {k n : Nat}
    {r : Record} (ht : s.opened o.properties = .ok t)
    (hes : Value.bareEntries es = Value.bareEntries t)
    (hr : (o.attributes (.dict es k)).record (.text o.id) n = .ok r) :
    o.outline? s = some r.bare := by
  obtain ⟨q, hq, hb⟩ := Record.exists_bare_eq (a := o.attributes .none) (l := 0) (n := 0) hes hr
  have hq' : (o.attributes (.dict t)).record (.text o.id) 0 = .ok q := hq
  simp only [outline?, ht, hq', ← hb]
  rfl

variable {player : Value} {s : Store}

/-- In a new game, these objects have been defined as they are described. The first record is kept,
also if the player has been described anew: properties of objects to come may refer to it. -/
structure Installed (player : Value) (os : List ObjectSpec) (s : Store) : Prop where
  nested : s.Nested
  links : s.links = links os
  first : s.RemembersFirst (.you player)
  records : ∀ x, (s.find? x).map Record.bare = match described? os x with
    | some o => o.outline? (.ofPlayer player)
    | none => ((Store.ofPlayer player).find? x).map Record.bare

theorem installed_nil : Installed player [] (.ofPlayer player) where
  nested := Store.nested_ofPlayer
  links := by
    funext x
    rw [Store.links, Store.parent_ofPlayer]
    rfl
  first := Store.remembersFirst_ofPlayer
  records _ := rfl

theorem Installed.opened_eq (h : Installed player os s) (hp : player.hashable) {t : Table Value}
    (ht : Value.entriesReferBelow 1 t) : s.opened t = (Store.ofPlayer player).opened t :=
  Store.opened_congr h.first.record? Store.remembersFirst_ofPlayer.record?
    (Store.refersBelow_parts_you hp) ht

theorem Installed.enter (h : Installed player ps s) (ho : o.id ∉ ps.map (·.id)) {r : Record}
    (hid : r.id = .text o.id) (hserial : r.serial = s.made)
    (hpl : Store.Places s (.text o.id) (optional o.parent) ((s.leave (.text o.id)).enter r))
    (hr : o.outline? (.ofPlayer player) = some r.bare) :
    Installed player (ps ++ [o]) ((s.leave (.text o.id)).enter r) where
  nested := hpl.nested h.nested
  links := by
    rw [hpl.links_eq rfl, string?_optional, h.links, links_append_singleton ho]
  first := (h.first.leave _).enter (by rw [hserial, Store.leave_made])
  records x := by
    have hl := Store.lookup?_enter (s := s) (show r.id.isText by rw [hid]; rfl) x
    rw [described?_append_singleton ho]
    by_cases hx : x.string? = some o.id
    · have hxt : x.isText := by simp [Value.isText, hx]
      rw [hid, hx, Value.string?, if_pos rfl] at hl
      rw [if_pos hx, Store.find?_eq_lookup? _ hxt, hl]
      exact hr.symm
    · rw [hid, if_neg (fun he ↦ hx he.symm)] at hl
      rw [if_neg hx, ← h.records x, Store.find?, hl]
      rfl

/-- A definition is refused because the place leads back to the object, or the object is defined as
it is described. -/
theorem Installed.define_cases (h : Installed player ps s)
    (ho : o.id ∉ ps.map (·.id)) {t : Table Value} {es : List (Value × Value)}
    (ht : (Store.ofPlayer player).opened o.properties = .ok t)
    (hes : Value.bareEntries es = Value.bareEntries t) (k : Nat) :
    (∃ p, o.parent = some p ∧ (World.links ps).Reaches p o.id ∧
      Store.define (.text o.id) (o.attributes (.dict es k)) s = .error (.cycle o.id p) s) ∨
    ∃ v s', Store.define (.text o.id) (o.attributes (.dict es k)) s = .ok v s' ∧
      Installed player (ps ++ [o]) s' := by
  have hw := o.wellTyped_attributes es k
  rcases Store.define_cases (show (Value.text o.id).isText from rfl) hw s with
    ⟨f, hf, he⟩ | ⟨r, hr, he, hpl⟩
  · obtain ⟨p, hp, rfl, hreach⟩ := h.nested.refusal?_eq_some rfl hw.parent rfl rfl hf
    rw [show (o.attributes (.dict es k)).parent = optional o.parent from rfl, string?_optional]
      at hp
    exact .inl ⟨p, hp, h.links ▸ hreach, he⟩
  · obtain ⟨hid, -, hserial⟩ := Store.record_place hr
    exact .inr ⟨_, _, he, h.enter ho hid hserial hpl (ObjectSpec.outline?_eq ht hes hr)⟩

/-- The game once a value has been copied. -/
theorem freshCopy_eq {g : Game} {v w : Value} (hw : (v.stamped g.stamp).1 = w) :
    Play.freshCopy v g = .ok w { g with stamp := (v.stamped g.stamp).2 } := by
  rw [← hw]
  rfl

theorem ObjectSpec.install_of_ok {g : Game} {t : Table Value}
    {es : List (Value × Value)} {k : Nat} {v : Value} {s : Store}
    (ht : g.store.opened o.properties = .ok t)
    (hes : ((Value.dict t).stamped g.stamp).1 = .dict es k)
    (hs : Store.define (.text o.id) (o.attributes (.dict es k)) g.store = .ok v s) :
    o.install g = .ok () { g with stamp := ((Value.dict t).stamped g.stamp).2, store := s } := by
  have hlift : Play.lift (.ok t) g = .ok t g := rfl
  let g₁ : Game := { g with stamp := ((Value.dict t).stamped g.stamp).2 }
  have hd := Runs.discard_of_ok (Play.onStore_of_ok (g := g₁) hs)
  rw [install, Runs.get_bind, ht, Runs.bind_of_ok hlift, Runs.bind_of_ok (freshCopy_eq hes)]
  exact Runs.tryCatch_of_ok hd _

/-- A cycle is a problem of the world. -/
theorem ObjectSpec.install_of_error {g : Game} {t : Table Value}
    {es : List (Value × Value)} {k : Nat} {f : Fault} {s : Store}
    (ht : g.store.opened o.properties = .ok t)
    (hes : ((Value.dict t).stamped g.stamp).1 = .dict es k)
    (hs : Store.define (.text o.id) (o.attributes (.dict es k)) g.store = .error f s) :
    ∃ f', o.install g = .error (.fault f')
      { g with stamp := ((Value.dict t).stamped g.stamp).2, store := s } ∧
      ∀ x p, f = .cycle x p → f' = .world (.cycle (Fault.cycleText x p)) := by
  have hlift : Play.lift (.ok t) g = .ok t g := rfl
  let g₁ : Game := { g with stamp := ((Value.dict t).stamped g.stamp).2 }
  have hd := Runs.discard_of_error (Play.onStore_of_error (g := g₁) hs)
  rw [install, Runs.get_bind, ht, Runs.bind_of_ok hlift, Runs.bind_of_ok (freshCopy_eq hes),
    Runs.tryCatch_of_error hd]
  cases f with
  | cycle x p => exact ⟨_, rfl, by rintro _ _ ⟨⟩; rfl⟩
  | _ => exact ⟨_, rfl, nofun⟩

/-- Installing an object fails if its properties cannot be copied, or if it would be inside
itself. -/
theorem Installed.install_cases {g : Game} (h : Installed player ps g.store) (hp : player.hashable)
    (ho : o.id ∉ ps.map (·.id)) (hrefs : Value.entriesReferBelow 1 o.properties) :
    (∃ f, (Store.ofPlayer player).opened o.properties = .error f ∧
      o.install g = .error (.fault f) g) ∨
    o.Copyable (.ofPlayer player) ∧
      ((∃ p, o.parent = some p ∧ (World.links ps).Reaches p o.id ∧
        ∃ e g', o.install g = .error (.fault (.world e)) g') ∨
      ∃ g', o.install g = .ok () g' ∧ Installed player (ps ++ [o]) g'.store) := by
  have hopened := h.opened_eq hp hrefs
  cases ht : (Store.ofPlayer player).opened o.properties with
  | error f =>
    rw [ObjectSpec.install, Runs.get_bind, hopened, ht]
    exact .inl ⟨f, rfl, rfl⟩
  | ok t =>
    refine .inr ⟨⟨t, ht⟩, ?_⟩
    obtain ⟨es, k, hv, hes⟩ := Value.exists_eq_dict_of_bare (Value.bare_stamped g.stamp (.dict t))
    rcases h.define_cases ho ht hes k with ⟨p, hp, hreach, hd⟩ | ⟨v, s, hd, hinst⟩
    · obtain ⟨f, hf, hworld⟩ := ObjectSpec.install_of_error (hopened.trans ht) hv hd
      rw [hworld _ _ rfl] at hf
      exact .inl ⟨p, hp, hreach, _, _, hf⟩
    · exact .inr ⟨_, ObjectSpec.install_of_ok (hopened.trans ht) hv hd, hinst⟩

end World

end Fable
