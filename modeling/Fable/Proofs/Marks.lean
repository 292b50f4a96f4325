import Fable.Proofs.Weight
import Fable.Proofs.Whereabouts

namespace Fable

namespace Table

variable {α : Type} (t : Table α)

theorem find?_modify_cases (key k : Value) (f : α → α) :
    (t.modify key f).find? k = t.find? k ∨ (t.modify key f).find? k = (t.find? k).map f := by
  induction t with
  | nil => exact .inl rfl
  | cons e t ih =>
    rw [modify, List.map_cons, ← modify, find?_cons, find?_cons]
    by_cases hkey : Value.alike e.1 key <;> by_cases hk : Value.alike e.1 k <;>
      simp [hkey, hk, ih]

/-- The entry of a text is changed under that text alone. -/
theorem find?_modify_of_ne {key k : Value} (hk : k.isText)
    (hne : key.string? ≠ k.string?) (f : α → α) :
    (t.modify key f).find? k = t.find? k := by
  induction t with
  | nil => rfl
  | cons e t ih =>
    rw [modify, List.map_cons, ← modify, find?_cons, find?_cons, ih]
    by_cases hek : Value.alike e.1 k
    · have hs : e.1.string? = k.string? := by simpa [Value.alike_eq_of_isText _ hk] using hek
      have ht : e.1.isText := by rwa [Value.isText, hs]
      have hkey : Value.alike e.1 key = false := by
        rw [Value.alike_eq_of_isText_left ht, hs, beq_eq_false_iff_ne]
        exact hne.symm
      simp [hkey]
    · split <;> simp

end Table

namespace Store

variable {s t u : Store} {β : Type} {p : Record → β}

def Fixes (p : Record → β) (s t : Store) : Prop := ∀ x, (t.find? x).map p = (s.find? x).map p

theorem Fixes.refl (p : Record → β) (s : Store) : Fixes p s s := fun _ ↦ rfl

theorem Fixes.trans (hs : Fixes p s t) (ht : Fixes p t u) : Fixes p s u :=
  fun x ↦ (ht x).trans (hs x)

theorem find?_update_cases (s : Store) (id x : Value) (f : Record → Record) :
    (s.update id f).find? x = s.find? x ∨ (s.update id f).find? x = (s.find? x).map f := by
  unfold find?
  split
  · exact .inl rfl
  · exact Table.find?_modify_cases s.records id x f

theorem fixes_update (id : Value) {f : Record → Record} (hf : ∀ r, p (f r) = p r) :
    Fixes p s (s.update id f) := by
  intro x
  rcases find?_update_cases s id x f with h | h
  · rw [h]
  · rw [h, Option.map_map]
    exact Option.map_congr fun r _ ↦ hf r

theorem fixes_of_move {id into : Value} (hp : ∀ r : Record, p { r with parent := into } = p r)
    (h : move id into s = .ok () t) : Fixes p s t := by
  rcases of_move_ok h with rfl | ⟨r, -, -, rfl⟩
  · exact .refl p t
  · exact fixes_update (p := p) id (f := fun r ↦ { r with parent := into }) hp

theorem fixes_of_edit {id : Value} {objection : Option Fault} {f : Record → Record}
    (hf : ∀ r, p (f r) = p r) (h : edit id objection f s = .ok () t) : Fixes p s t := by
  rcases of_edit_ok h with rfl | rfl
  · exact .refl p t
  · exact fixes_update id hf

theorem Fixes.hasFlag {flag : Value} (h : Fixes (·.hasFlag flag) s t) (x : Value) :
    t.hasFlag x flag = s.hasFlag x flag := by
  have hx := h x
  unfold Store.hasFlag
  cases hs : s.find? x <;> cases ht : t.find? x <;> simp_all

theorem Fixes.parent (h : Fixes (·.parent) s t) (x : Value) : t.parent x = s.parent x := by
  have hx := h x
  unfold Store.parent
  cases hs : s.find? x <;> cases ht : t.find? x <;> simp_all

theorem Fixes.property (h : Fixes (·.properties) s t) (x : Value) {key : Value}
    (hkey : Field.ofKey? key = none) (default : Value) :
    t.property x key default = s.property x key default := by
  have hx := h x
  unfold Store.property
  cases hs : s.find? x <;> cases ht : t.find? x <;> simp_all

end Store

namespace Record

variable (r : Record) {flag other : Value}

theorem hasFlag_setFlag_self (hflag : flag.isText) : (r.setFlag flag).hasFlag flag := by
  have hself : Value.alike flag flag := by rw [Value.alike_eq_of_isText _ hflag, beq_self_eq_true]
  unfold hasFlag setFlag Members.insert
  split
  · assumption
  · simp [Members.contains, Value.isAmong, hself]

theorem hasFlag_setFlag_of_ne (h : Value.alike flag other = false) :
    (r.setFlag other).hasFlag flag = r.hasFlag flag := by
  unfold hasFlag setFlag Members.insert
  split
  · rfl
  · simp [Members.contains, Value.isAmong, h]

theorem hasFlag_setFlag (h : r.hasFlag flag) : (r.setFlag other).hasFlag flag := by
  unfold setFlag Members.insert
  split
  · exact h
  · rw [hasFlag, Members.contains, Value.isAmong] at h ⊢
    rw [List.any_append, h, Bool.true_or]

theorem hasFlag_clearFlag_of_ne (hf : flag.isText) (ho : other.isText)
    (h : flag.string? ≠ other.string?) :
    (r.clearFlag other).hasFlag flag = r.hasFlag flag := by
  simp only [hasFlag, clearFlag, Members.contains, Members.items_erase, Value.isAmong]
  refine Bool.eq_iff_iff.2 ?_
  simp only [List.any_eq_true, List.mem_filter]
  constructor
  · rintro ⟨v, hv, ha⟩
    exact ⟨v, hv.1, ha⟩
  · rintro ⟨v, hv, ha⟩
    refine ⟨v, ⟨hv, ?_⟩, ha⟩
    rw [Value.alike_eq_of_isText_left hf, beq_iff_eq] at ha
    rw [Value.alike_eq_of_isText_left ho, Bool.not_eq_true', beq_eq_false_iff_ne, ← ha]
    exact h.symm

end Record

namespace Store

variable {s : Store} {id x flag : Value}

theorem find?_update_of_ne (hx : x.isText) (hne : id.string? ≠ x.string?) (f : Record → Record) :
    (s.update id f).find? x = s.find? x := by
  rw [find?_eq_lookup? _ hx, find?_eq_lookup? _ hx]
  exact Table.find?_modify_of_ne s.records hx hne f

end Store

namespace Store

variable {s t u : Store} {id into : Value}

def Valued (s : Store) : Prop :=
  ∀ e ∈ s.records, ((e.2.properties.find? (.text "VALUE")).getD (.int 0)).int?.isSome

instance (s : Store) : Decidable s.Valued :=
  inferInstanceAs (Decidable (∀ e ∈ s.records, _))

def worth (s : Store) (x : Value) : ℤ := (s.property x (.text "VALUE") (.int 0)).int?.getD 0

theorem Valued.int?_property (hs : s.Valued) (x : Value) :
    (s.property x (.text "VALUE") (.int 0)).int? = some (s.worth x) := by
  have hkey : Field.ofKey? (.text "VALUE") = none := by decide
  have hsome : (s.property x (.text "VALUE") (.int 0)).int?.isSome := by
    rw [property]
    cases hf : s.find? x with
    | none => rfl
    | some r =>
      obtain ⟨e, he, -, rfl⟩ := exists_mem_of_find? s hf
      simpa only [hkey] using hs e he
  obtain ⟨n, hn⟩ := Option.isSome_iff_exists.1 hsome
  rw [worth, hn, Option.getD_some]

structure Lasts (s t : Store) : Prop where
  ids : t.ids = s.ids
  properties : Fixes (·.properties) s t
  touched : ∀ x, s.hasFlag x Play.touchedFlag → t.hasFlag x Play.touchedFlag

theorem Lasts.refl (s : Store) : Lasts s s := ⟨rfl, .refl _ s, fun _ ↦ id⟩

theorem Lasts.trans (hs : Lasts s t) (ht : Lasts t u) : Lasts s u where
  ids := ht.ids.trans hs.ids
  properties := hs.properties.trans ht.properties
  touched x hx := ht.touched x (hs.touched x hx)

theorem Lasts.property (h : Lasts s t) (x default : Value) :
    t.property x (.text "VALUE") default = s.property x (.text "VALUE") default :=
  h.properties.property x (by decide) default

theorem fixes_flags_of_move {flag : Value} (h : move id into s = .ok () t) :
    Fixes (·.hasFlag flag) s t := fixes_of_move (p := (·.hasFlag flag)) (fun _ ↦ rfl) h

theorem lasts_of_move (h : move id into s = .ok () t) : Lasts s t where
  ids := by
    rcases of_move_ok h with rfl | ⟨r, -, -, rfl⟩
    · rfl
    · exact ids_update s id fun r ↦ { r with parent := into }
  properties := fixes_of_move (p := (·.properties)) (fun _ ↦ rfl) h
  touched x hx := by rwa [(fixes_flags_of_move h).hasFlag]

theorem lasts_update {f : Record → Record} (hp : ∀ r, (f r).properties = r.properties)
    (ht : ∀ r, r.hasFlag Play.touchedFlag → (f r).hasFlag Play.touchedFlag) :
    Lasts s (s.update id f) where
  ids := ids_update s id f
  properties := fixes_update id hp
  touched x hx := by
    rw [hasFlag] at hx ⊢
    cases hr : s.find? x with
    | none => simp [hr] at hx
    | some r =>
      rw [hr] at hx
      rcases find?_update_cases s id x f with he | he
      · rwa [he, hr]
      · rw [he, hr]
        exact ht r hx

theorem lasts_taken {x : Value} (h : move x into s = .ok () t) :
    Lasts s (t.update x (·.setFlag Play.touchedFlag)) :=
  (lasts_of_move h).trans (lasts_update (f := (·.setFlag _)) (fun _ ↦ rfl) fun r ↦
    r.hasFlag_setFlag)

theorem lasts_of_edit {objection : Option Fault} {f : Record → Record}
    (hp : ∀ r, (f r).properties = r.properties)
    (ht : ∀ r, r.hasFlag Play.touchedFlag → (f r).hasFlag Play.touchedFlag)
    (h : edit id objection f s = .ok () t) : Lasts s t := by
  rcases of_edit_ok h with rfl | rfl
  · exact .refl t
  · exact lasts_update hp ht

end Store

namespace Record

theorem touched_setOpen (r : Record) :
    (r.setFlag Store.openFlag).hasFlag Play.touchedFlag = r.hasFlag Play.touchedFlag :=
  r.hasFlag_setFlag_of_ne (by simp [Play.touchedFlag, Store.openFlag])

theorem touched_clearOpen (r : Record) :
    (r.clearFlag Store.openFlag).hasFlag Play.touchedFlag = r.hasFlag Play.touchedFlag :=
  r.hasFlag_clearFlag_of_ne rfl rfl (by decide)

end Record

namespace Game

variable {g h k : Game}

theorem Step.winner (hs : Step g h) : h.global "WINNER" = g.global "WINNER" := by
  cases hs with
  | tells ht => exact ht.global _
  | asks tag direct indirect => exact winner_asked g tag direct indirect
  | takesFirst hscope htakeable hfree hmove huntouched htotal =>
    exact (global_assign g "SCORE" _ "WINNER").trans (if_neg (by decide))
  | @walks room s hroom hmove =>
    exact (global_assign g "HERE" room "WINNER").trans (if_neg (by decide))
  | dies => exact (global_assign g "DEAD-FLAG" _ "WINNER").trans (if_neg (by decide))
  | wins => exact (global_assign g "WON-FLAG" _ "WINNER").trans (if_neg (by decide))
  | _ => rfl

theorem Step.lasts (hs : Step g h) : g.store.Lasts h.store := by
  cases hs with
  | tells ht => exact ht.store ▸ .refl _
  | asks | dies | wins => exact .refl _
  | takes hscope htakeable hfree hmove hscore => exact Store.lasts_taken hmove
  | takesFirst hscope htakeable hfree hmove huntouched htotal => exact Store.lasts_taken hmove
  | drops hheld hmove => exact Store.lasts_of_move hmove
  | walks hroom hmove => exact Store.lasts_of_move hmove
  | opens hscope hcontainer hset =>
    exact Store.lasts_of_edit (f := (·.setFlag _)) (fun _ ↦ rfl) (fun r ↦ r.hasFlag_setFlag) hset
  | closes hscope hcontainer hclear =>
    exact Store.lasts_of_edit (f := (·.clearFlag _)) (fun _ ↦ rfl)
      (fun r ↦ r.touched_clearOpen.trans) hclear
  | describes hset =>
    exact Store.lasts_of_edit (f := (·.setFlag _)) (fun _ ↦ rfl) (fun r ↦ r.hasFlag_setFlag) hset

theorem Steps.lasts (hs : Steps g h) :
    h.global "WINNER" = g.global "WINNER" ∧ g.store.Lasts h.store := by
  induction hs with
  | refl => exact ⟨rfl, .refl _⟩
  | tail _ hstep ih => exact ⟨hstep.winner.trans ih.1, ih.2.trans hstep.lasts⟩

def touched (g : Game) (x : String) : Bool := g.store.hasFlag (.text x) Play.touchedFlag

structure Unmarked (g h : Game) : Prop where
  score : h.globalOr "SCORE" (.int 0) = g.globalOr "SCORE" (.int 0)
  touched : ∀ x, h.touched x = g.touched x

/-- Nothing is counted, and nothing is touched but the room, which stays the same. -/
structure Seen (g h : Game) : Prop where
  score : h.globalOr "SCORE" (.int 0) = g.globalOr "SCORE" (.int 0)
  here : h.global "HERE" = g.global "HERE"
  touched : ∀ x, h.touched x → g.touched x ∨ (g.global "HERE").string? = some x

structure Visited (g h : Game) : Prop where
  score : h.globalOr "SCORE" (.int 0) = g.globalOr "SCORE" (.int 0)
  touched : ∀ x, h.touched x → g.touched x ∨ (h.global "HERE").string? = some x

theorem Told.globalOr (hg : g.Told h) (name : String) (default : Value) :
    h.globalOr name default = g.globalOr name default := by
  rw [Game.globalOr, Game.globalOr, hg.globals]

theorem Told.unmarked (hg : g.Told h) : g.Unmarked h where
  score := hg.globalOr _ _
  touched x := by rw [Game.touched, Game.touched, hg.store]

theorem Told.seen (hg : g.Told h) : g.Seen h where
  score := hg.globalOr _ _
  here := hg.global _
  touched x hx := .inl (hg.unmarked.touched x ▸ hx)

theorem Unmarked.trans (hg : g.Unmarked h) (hh : h.Unmarked k) : g.Unmarked k where
  score := hh.score.trans hg.score
  touched x := (hh.touched x).trans (hg.touched x)

theorem Seen.trans (hg : g.Seen h) (hh : h.Seen k) : g.Seen k where
  score := hh.score.trans hg.score
  here := hh.here.trans hg.here
  touched x hx := by
    rcases hh.touched x hx with hx | hx
    · exact hg.touched x hx
    · exact .inr (hg.here ▸ hx)

theorem Seen.visited (hg : g.Seen h) : g.Visited h :=
  ⟨hg.score, fun x hx ↦ hg.here ▸ hg.touched x hx⟩

theorem Unmarked.visited (hg : g.Unmarked h) : g.Visited h :=
  ⟨hg.score, fun x hx ↦ .inl (hg.touched x ▸ hx)⟩

theorem Unmarked.trans_visited (hg : g.Unmarked h) (hh : h.Visited k) : g.Visited k :=
  ⟨hh.score.trans hg.score, fun x hx ↦ hg.touched x ▸ hh.touched x hx⟩

theorem Unmarked.of_store {s : Store} (hs : g.store.Fixes (·.hasFlag Play.touchedFlag) s) :
    g.Unmarked { g with store := s } :=
  ⟨rfl, fun x ↦ hs.hasFlag (.text x)⟩

theorem Glimpse.seen (hs : Glimpse g h) : g.Seen h := by
  cases hs with
  | tells ht => exact ht.seen
  | describes hset =>
    refine ⟨rfl, rfl, fun x hx ↦ ?_⟩
    rcases Store.of_edit_ok hset with rfl | rfl
    · exact .inl hx
    · by_cases he : (g.global "HERE").string? = some x
      · exact .inr he
      · rw [Game.touched, Store.hasFlag, Store.find?_update_of_ne rfl he] at hx
        exact .inl hx
  | dies => exact ⟨g.globalOr_assign _ _ _ _, g.global_assign _ _ _, fun _ ↦ .inl⟩
  | wins => exact ⟨g.globalOr_assign _ _ _ _, g.global_assign _ _ _, fun _ ↦ .inl⟩

theorem Glimpses.seen (hs : Glimpses g h) : g.Seen h := by
  induction hs with
  | refl => exact (Told.refl g).seen
  | tail _ hstep ih => exact ih.trans hstep.seen

theorem Deed.visited {v : StandardVerb} (hd : Deed v g h) (hv : v = .look ∨ v = .walk) :
    g.Visited h := by
  cases hd with
  | tells v ht => exact ht.unmarked.visited
  | looks hh => exact (Glimpses.seen hh).visited
  | stays hh => exact (Glimpses.seen hh).visited
  | @walks _ _ room s hroom hmove hh =>
    have hstore : g.Unmarked { g with store := s } := .of_store (Store.fixes_flags_of_move hmove)
    have hwalked : g.Unmarked { g.assign "HERE" room with store := s } :=
      ⟨g.globalOr_assign "HERE" room "SCORE" _, hstore.touched⟩
    exact hwalked.trans_visited (Glimpses.seen hh).visited
  | _ => simp at hv

theorem Deed.unmarked {v : StandardVerb} (hd : Deed v g h) (htake : v ≠ .take) (hlook : v ≠ .look)
    (hwalk : v ≠ .walk) : g.Unmarked h := by
  cases hd with
  | tells v ht => exact ht.unmarked
  | drops hheld hmove hh =>
    exact (Unmarked.of_store (Store.fixes_flags_of_move hmove)).trans hh.unmarked
  | opens hscope hcontainer hset hh =>
    have hfixes :=
      Store.fixes_of_edit (p := (·.hasFlag Play.touchedFlag)) Record.touched_setOpen hset
    exact (Unmarked.of_store hfixes).trans hh.unmarked
  | closes hscope hcontainer hclear hh =>
    have hfixes :=
      Store.fixes_of_edit (p := (·.hasFlag Play.touchedFlag)) Record.touched_clearOpen hclear
    exact (Unmarked.of_store hfixes).trans hh.unmarked
  | _ => contradiction

theorem Does.visited {v : StandardVerb} (hd : g.Does v h) (hv : v = .look ∨ v = .walk) :
    g.Visited h := by
  obtain ⟨k, hk, hd⟩ := hd
  exact hk.unmarked.trans_visited (hd.visited hv)

theorem Does.unmarked {v : StandardVerb} (hd : g.Does v h) (htake : v ≠ .take) (hlook : v ≠ .look)
    (hwalk : v ≠ .walk) : g.Unmarked h := by
  obtain ⟨k, hk, hd⟩ := hd
  exact hk.unmarked.trans (hd.unmarked htake hlook hwalk)

end Game

end Fable
