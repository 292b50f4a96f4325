import Fable.Proofs.Calls
import Fable.Proofs.Exports
import Fable.Resolver

namespace Fable

namespace Value

def ListsTexts (v : Value) : Prop := ∃ xs, v.elements = .ok xs ∧ ∀ x ∈ xs, x.isText

def ListsWord (v : Value) (word : String) : Prop :=
  ∃ xs, v.elements = .ok xs ∧ ∃ x ∈ xs, x.string?.map Text.lower = some word

instance (v : Value) : Decidable v.ListsTexts :=
  match h : v.elements with
  | .ok xs => decidable_of_iff (∀ x ∈ xs, x.isText) (by simp [ListsTexts, h])
  | .error _ => isFalse (by simp [ListsTexts, h])

instance (v : Value) (word : String) : Decidable (v.ListsWord word) :=
  match h : v.elements with
  | .ok xs =>
    decidable_of_iff (∃ x ∈ xs, x.string?.map Text.lower = some word) (by simp [ListsWord, h])
  | .error _ => isFalse (by simp [ListsWord, h])

theorem lowered_of_elements {v : Value} {xs : List Value} (hv : v.elements = .ok xs)
    (hxs : ∀ x ∈ xs, x.isText) :
    Resolver.lowered v = .ok (xs.map fun x ↦ Text.lower (x.string?.getD "")) := by
  rw [Resolver.lowered, hv]
  clear hv
  change List.mapM _ xs = _
  induction xs with
  | nil => rfl
  | cons x xs ih =>
    obtain ⟨s, hs⟩ := isText_iff.1 (hxs x List.mem_cons_self)
    rw [List.mapM_cons, ih fun y hy ↦ hxs y (List.mem_cons_of_mem x hy), List.map_cons, hs]
    rfl

theorem exists_lowered {v : Value} (hv : v.ListsTexts) :
    ∃ ws, Resolver.lowered v = .ok ws ∧ ∀ w, w ∈ ws ↔ v.ListsWord w := by
  obtain ⟨xs, hxs, htexts⟩ := hv
  refine ⟨_, lowered_of_elements hxs htexts, fun w ↦ ?_⟩
  have hword {x : Value} (hx : x ∈ xs) :
      Text.lower (x.string?.getD "") = w ↔ x.string?.map Text.lower = some w := by
    obtain ⟨s, hs⟩ := isText_iff.1 (htexts x hx)
    simp [hs]
  rw [List.mem_map, ListsWord]
  simp only [hxs, Except.ok.injEq, exists_eq_left']
  exact ⟨fun ⟨x, hx, h⟩ ↦ ⟨x, hx, (hword hx).1 h⟩, fun ⟨x, hx, h⟩ ↦ ⟨x, hx, (hword hx).2 h⟩⟩

end Value

/-- The words name an object with this identity and record: joined they are its identity, or the
last one is its identity or a synonym and the others are adjectives of it. Texts count in small
letters, as the words of a line do. -/
inductive Record.Names (r : Record) (id : String) : List String → Prop
  | joined {phrase : List String} (h : Text.upper ("-".intercalate phrase) = id) : Names r id phrase
  | noun {adjectives : List String} {noun : String}
      (hnoun : noun = Text.lower id ∨ r.synonyms.ListsWord noun)
      (hadjectives : ∀ w ∈ adjectives, r.adjectives.ListsWord w) : Names r id (adjectives ++ [noun])

theorem Record.names_concat_iff {r : Record} {id noun : String} {adjectives : List String} :
    r.Names id (adjectives ++ [noun]) ↔ Text.upper ("-".intercalate (adjectives ++ [noun])) = id ∨
      (noun = Text.lower id ∨ r.synonyms.ListsWord noun) ∧ ∀ w ∈ adjectives,
      r.adjectives.ListsWord w := by
  constructor
  · intro h
    generalize hphrase : adjectives ++ [noun] = phrase at h
    cases h with
    | joined h => exact .inl h
    | noun hnoun hadjectives =>
      obtain ⟨rfl, hlast⟩ := List.append_inj' hphrase rfl
      obtain rfl := List.singleton_inj.1 hlast
      exact .inr ⟨hnoun, hadjectives⟩
  · rintro (h | ⟨hnoun, hadjectives⟩)
    · exact .joined h
    · exact .noun hnoun hadjectives

namespace Store

def Named (s : Store) (phrase : List String) (x : Value) : Prop :=
  ∃ id r, x.string? = some id ∧ s.find? x = some r ∧ r.Names id phrase

/-- Objects are under texts, or under none, each under another one, and their synonyms and
adjectives are texts. -/
structure Labelled (s : Store) : Prop where
  places : ∀ x ∈ s.ids, x.IsPlace
  apart : s.ids.Pairwise fun x y ↦ x.string? ≠ y.string?
  synonyms : ∀ e ∈ s.records, e.2.synonyms.ListsTexts
  adjectives : ∀ e ∈ s.records, e.2.adjectives.ListsTexts

theorem Reachable.labelled {s : Store} (hr : s.Reachable)
    (hsynonyms : ∀ e ∈ s.records, e.2.synonyms.ListsTexts)
    (hadjectives : ∀ e ∈ s.records, e.2.adjectives.ListsTexts) : s.Labelled where
  places _ hx := .of_isText (hr.isText_of_mem_ids hx)
  apart := hr.ids_pairwise
  synonyms := hsynonyms
  adjectives := hadjectives

theorem Labelled.named_iff {s : Store} (hs : s.Labelled) {e : Value × Record} (he : e ∈ s.records)
    {phrase : List String} :
    s.Named phrase e.1 ↔ ∃ id, e.1.string? = some id ∧ e.2.Names id phrase := by
  have hfind {id : String} (hid : e.1.string? = some id) : s.find? e.1 = some e.2 :=
    s.find?_of_mem hs.apart he (Value.isText_iff.2 ⟨id, hid⟩)
  constructor
  · intro h
    obtain ⟨id, r, hid, hr, hnames⟩ := h
    rw [hfind hid] at hr
    obtain rfl := Option.some.inj hr
    exact ⟨id, hid, hnames⟩
  · intro h
    obtain ⟨id, hid, hnames⟩ := h
    exact ⟨id, e.2, hid, hfind hid, hnames⟩

end Store

namespace Resolver

variable {phrase : List String}

theorem exists_names {x : Value} {r : Record} {id : String} (hid : x.string? = some id)
    (hsynonyms : r.synonyms.ListsTexts) (hadjectives : r.adjectives.ListsTexts)
    (hphrase : phrase ≠ []) :
    ∃ b, names x r phrase = .ok b ∧ (b = true ↔ r.Names id phrase) := by
  obtain ⟨synonyms, hlowered, hsynonym⟩ := Value.exists_lowered hsynonyms
  obtain ⟨known, hknown, hadjective⟩ := Value.exists_lowered hadjectives
  obtain ⟨adjectives, noun, rfl⟩ := (List.eq_nil_or_concat' phrase).resolve_left hphrase
  have hjoined : Value.same (.text (Text.upper ("-".intercalate (adjectives ++ [noun])))) x =
      (Text.upper ("-".intercalate (adjectives ++ [noun])) == id) := by
    rw [Value.same_eq_of_isText_left rfl, hid]
    rfl
  have hnames : names x r (adjectives ++ [noun]) =
      .ok (Text.upper ("-".intercalate (adjectives ++ [noun])) == id ||
        (Text.lower id :: synonyms).contains noun && adjectives.all known.contains) := by
    simp only [names, hjoined, hlowered, hknown, hid, List.getLastD_concat, List.dropLast_concat]
    cases Text.upper ("-".intercalate (adjectives ++ [noun])) == id with
    | true => rfl
    | false =>
      change (if !(Text.lower id :: synonyms).contains noun then Except.ok false
        else .ok (adjectives.all known.contains)) = _
      cases (Text.lower id :: synonyms).contains noun <;> rfl
  refine ⟨_, hnames, ?_⟩
  rw [Record.names_concat_iff, ← hsynonym]
  simp [← hadjective]

section

open Classical

theorem firstNamed_eq {s : Store} (hs : s.Labelled) (hphrase : phrase ≠ []) {t : Table Record}
    (ht : ∀ e ∈ t, e ∈ s.records) :
    firstNamed phrase t = .ok ((Table.keys t).find? fun x ↦ s.Named phrase x) := by
  induction t with
  | nil => rfl
  | cons e t ih =>
    have he := ht e List.mem_cons_self
    have hrest := ih fun d hd ↦ ht d (List.mem_cons_of_mem e hd)
    have hkeys : Table.keys (e :: t) = e.1 :: Table.keys t := rfl
    rw [firstNamed, hkeys, List.find?_cons, hrest]
    cases hid : e.1.string? with
    | none =>
      have hnot : ¬ s.Named phrase e.1 := by
        rw [hs.named_iff he, hid]
        simp
      rw [if_pos ((hs.places e.1 (List.mem_map_of_mem he)).isNone_of_string? hid),
        decide_eq_false hnot]
    | some id =>
      obtain ⟨b, hnames, hb⟩ := exists_names hid (hs.synonyms e he) (hs.adjectives e he) hphrase
      have hnamed : decide (s.Named phrase e.1) = b := by
        rw [Bool.eq_iff_iff, decide_eq_true_iff, hs.named_iff he, hb, hid]
        simp
      have hsome : e.1.isNone = false :=
        Value.isNone_eq_false_of_isText (Value.isText_iff.2 ⟨id, hid⟩)
      rw [hsome, hnames, hnamed]
      cases b <;> rfl

theorem match?_eq {g : Game} (hs : g.store.Labelled) (hphrase : phrase ≠ []) :
    match? g phrase = .ok (((g.store.ids.filter g.inScope).find? fun x ↦ g.store.Named phrase x).or
      (g.store.ids.find? fun x ↦ g.store.Named phrase x)) := by
  have hnear : Table.keys (g.store.records.filter fun e ↦ g.inScope e.1) =
      g.store.ids.filter g.inScope := by
    rw [Store.ids, Table.keys, Table.keys, List.filter_map]
    rfl
  rw [match?, firstNamed_eq hs hphrase fun e he ↦ (List.mem_filter.1 he).1, hnear,
    firstNamed_eq hs hphrase fun e he ↦ he]
  cases (g.store.ids.filter g.inScope).find? fun x ↦ g.store.Named phrase x <;> rfl

end

/-- What is searched for among the near ones first, and then among all. -/
theorem find?_near_spec {α : Type} (near wanted : α → Bool) {l : List α} {found : Option α}
    (h : ((l.filter near).find? wanted).or (l.find? wanted) = found) :
    (found = none ↔ ∀ x ∈ l, ¬ wanted x) ∧
    ∀ x, found = some x → wanted x ∧ ((∃ y ∈ l, wanted y ∧ near y) → near x) ∧
      ∃ earlier later, l = earlier ++ x :: later ∧ ∀ y ∈ earlier, wanted y → near y ≠ near x := by
  rw [List.find?_filter] at h
  cases hnear : l.find? fun a ↦ decide (near a ∧ wanted a) with
  | some a =>
    rw [hnear, Option.some_or] at h
    obtain ⟨ha, earlier, later, hl, hearlier⟩ := List.find?_eq_some_iff_append.1 hnear
    have ha := of_decide_eq_true ha
    constructor
    · subst h
      simpa using ⟨a, by simp [hl], ha.2⟩
    intro x hx
    obtain rfl : a = x := Option.some.inj (h.trans hx)
    refine ⟨ha.2, fun _ ↦ ha.1, earlier, later, hl, fun y hy hwanted hsame ↦ ?_⟩
    simpa [hsame, ha.1, hwanted] using hearlier y hy
  | none =>
    rw [hnear, Option.none_or] at h
    have hfar (y : α) (hy : y ∈ l) : ¬ (near y ∧ wanted y) := by
      simpa using List.find?_eq_none.1 hnear y hy
    constructor
    · rw [← h, List.find?_eq_none]
    intro x hx
    obtain ⟨hx, earlier, later, hl, hearlier⟩ := List.find?_eq_some_iff_append.1 (h.trans hx)
    refine ⟨hx, fun ⟨y, hy, hwanted, hin⟩ ↦ absurd ⟨hin, hwanted⟩ (hfar y hy), earlier,
      later, hl, ?_⟩
    intro y hy hwanted
    exact absurd hwanted (by simpa using hearlier y hy)

/-- A search never fails. It finds nothing exactly if the words name no object; otherwise it finds
one that they name, near if any such object is, and the first that is as near. -/
theorem match?_finds {g : Game} (hs : g.store.Labelled) (hphrase : phrase ≠ []) :
    ∃ found, match? g phrase = .ok found ∧
      (found = none ↔ ∀ x ∈ g.store.ids, ¬ g.store.Named phrase x) ∧
      ∀ x, found = some x → g.store.Named phrase x ∧
        ((∃ y ∈ g.store.ids, g.store.Named phrase y ∧ g.inScope y) → g.inScope x) ∧
        ∃ earlier later, g.store.ids = earlier ++ x :: later ∧
          ∀ y ∈ earlier, g.store.Named phrase y → g.inScope y ≠ g.inScope x := by
  classical
  refine ⟨_, match?_eq hs hphrase, ?_⟩
  simpa only [decide_eq_true_eq] using find?_near_spec g.inScope
    (fun x ↦ decide (g.store.Named phrase x)) rfl

def twoLamps : Game where
  store := Store.history [
    .define (.text "CELLAR-LAMP") { parent := .text "CELLAR", fields := [
      (.synonyms, .list [.text "Lamp"]), (.adjectives, .list [.text "brass"])] },
    .define (.text "HALL-LAMP") { parent := .text "HALL", fields := [
      (.synonyms, .list [.text "Lamp"]), (.adjectives, .list [.text "brass"])] }]
  globals := [(.text "HERE", .text "HALL")]

theorem labelled_twoLamps : twoLamps.store.Labelled := by
  have hr : twoLamps.store.Reachable := by
    apply Store.reachable_history
    simp only [List.mem_cons, List.not_mem_nil, or_false]
    rintro c (rfl | rfl)
    · exact ⟨rfl, .of_isText rfl, ⟨_, rfl⟩, ⟨_, rfl⟩⟩
    · exact ⟨rfl, .of_isText rfl, ⟨_, rfl⟩, ⟨_, rfl⟩⟩
  have htexts : ∀ e ∈ twoLamps.store.records, e.2.synonyms.ListsTexts ∧
      e.2.adjectives.ListsTexts := by
    decide +kernel
  exact hr.labelled (fun e he ↦ (htexts e he).1) fun e he ↦ (htexts e he).2

theorem named_twoLamps : ∀ x ∈ twoLamps.store.ids, twoLamps.store.Named ["brass", "lamp"] x := by
  have hwords : ∀ e ∈ twoLamps.store.records,
      e.1.isText ∧ e.2.synonyms.ListsWord "lamp" ∧ ∀ w ∈ ["brass"], e.2.adjectives.ListsWord w := by
    decide +kernel
  intro x hx
  obtain ⟨e, he, rfl⟩ := List.mem_map.1 hx
  obtain ⟨htext, hnoun, hadjectives⟩ := hwords e he
  obtain ⟨id, hid⟩ := Value.isText_iff.1 htext
  exact (labelled_twoLamps.named_iff he).2 ⟨id, hid, .noun (.inr hnoun) hadjectives⟩

/-- Both lamps are named, and the one in sight is found. -/
theorem lamp_in_sight_found :
    twoLamps.store.Labelled ∧ ["brass", "lamp"] ≠ [] ∧
      (∃ x ∈ twoLamps.store.ids, twoLamps.store.Named ["brass", "lamp"] x ∧
        twoLamps.inScope x = false) ∧
      ∃ x, match? twoLamps ["brass", "lamp"] = .ok (some x) ∧ twoLamps.inScope x := by
  obtain ⟨far, hfar, hhidden⟩ : ∃ x ∈ twoLamps.store.ids, twoLamps.inScope x = false := by
    decide +kernel
  obtain ⟨near, hnear, hscope⟩ : ∃ x ∈ twoLamps.store.ids, twoLamps.inScope x := by decide +kernel
  refine ⟨labelled_twoLamps, by decide, ⟨far, hfar, named_twoLamps far hfar, hhidden⟩, ?_⟩
  obtain ⟨found, hfound, hnone, hsome⟩ :=
    match?_finds labelled_twoLamps (by decide : ["brass", "lamp"] ≠ [])
  cases found with
  | none => exact absurd (named_twoLamps near hnear) (hnone.1 rfl near hnear)
  | some x => exact ⟨x, hfound, (hsome x rfl).2.1 ⟨near, hnear, named_twoLamps near hnear, hscope⟩⟩

end Resolver

end Fable
