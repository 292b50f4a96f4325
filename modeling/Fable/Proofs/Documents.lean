import Fable.Proofs.Exports
import Fable.World.File

namespace Fable

namespace Value

/-- A value that can be written as JSON, with floats or without: no stamps, and dictionaries with
texts as keys, each of them once. -/
inductive IsJson (floats : Bool) : Value → Prop
  | none : IsJson floats none
  | bool (b : Bool) : IsJson floats (bool b)
  | int (n : Int) : IsJson floats (int n)
  | float (x : Float) : floats → IsJson floats (float x)
  | nan (stamp : Nat) : floats → IsJson floats (nan stamp)
  | text (s : String) : IsJson floats (text s)
  | list {xs : List Value} : (∀ x ∈ xs, IsJson floats x) → IsJson floats (list xs)
  | dict {es : List (Value × Value)} :
      Table.Named es → (∀ e ∈ es, IsJson floats e.2) → IsJson floats (dict es)

variable {floats : Bool}

theorem itemsMarked_eq_false {xs : List Value} (h : ∀ x ∈ xs, x.isMarked = false) :
    itemsMarked xs = false := by
  induction xs with
  | nil => rfl
  | cons x xs ih =>
    rw [itemsMarked, h x List.mem_cons_self, ih fun y hy ↦ h y (List.mem_cons_of_mem _ hy)]
    rfl

theorem entriesMarked_eq_false {es : List (Value × Value)}
    (h : ∀ e ∈ es, (∃ x, e.1 = .text x) ∧ e.2.isMarked = false) : entriesMarked es = false := by
  induction es with
  | nil => rfl
  | cons e es ih =>
    obtain ⟨⟨x, hx⟩, he⟩ := h e List.mem_cons_self
    rw [entriesMarked, hx, he, ih fun f hf ↦ h f (List.mem_cons_of_mem _ hf)]
    rfl

theorem IsJson.isMarked {v : Value} (h : v.IsJson floats) : v.isMarked = false := by
  induction h with
  | list _ ih => simp [Value.isMarked, itemsMarked_eq_false ih]
  | dict hes _ ih =>
    simp [Value.isMarked, entriesMarked_eq_false fun e he ↦ ⟨hes.exists_text he, ih e he⟩]
  | _ => rfl

theorem bareItems_eq_map (xs : List Value) : bareItems xs = xs.map bare := by
  induction xs with
  | nil => rfl
  | cons x xs ih => rw [bareItems, ih, List.map_cons]

theorem bareEntries_eq_map (es : List (Value × Value)) :
    bareEntries es = es.map fun e ↦ (e.1.bare, e.2.bare) := by
  induction es with
  | nil => rfl
  | cons e es ih => rw [bareEntries, ih, List.map_cons]

theorem IsJson.bare_eq {v : Value} (h : v.IsJson floats) : v.bare = v := by
  induction h with
  | @list xs _ ih => rw [bare, bareItems_eq_map, List.map_congr_left ih, List.map_id']
  | @dict es hes _ ih =>
    have hsame : (es.map fun e ↦ (e.1.bare, e.2.bare)) = es := by
      refine (List.map_congr_left fun e he ↦ ?_).trans (List.map_id es)
      obtain ⟨x, hx⟩ := hes.exists_text he
      rw [ih e he, hx]
      exact Prod.ext hx.symm rfl
    rw [bare, bareEntries_eq_map, hsame]
  | _ => rfl

theorem IsJson.stamped {v : Value} (h : v.IsJson floats) (n : Nat) : v.stamped n = (v, n) := by
  have hmarked := h.isMarked
  cases h with
  | list _ => simp_all [Value.stamped, Value.isMarked]
  | dict _ _ => simp_all [Value.stamped, Value.isMarked]
  | _ => rfl

end Value

variable {floats : Bool}

namespace Store

variable {record : Opening} {around : List Value}

theorem openedItems_eq {xs : List Value} (h : ∀ x ∈ xs, openedBy record around x = .ok x) :
    openedItems record around xs = .ok xs := by
  induction xs with
  | nil => rfl
  | cons x xs ih =>
    rw [openedItems, h x List.mem_cons_self, ih fun y hy ↦ h y (List.mem_cons_of_mem _ hy)]
    rfl

theorem openedEntries_eq {es : List (Value × Value)}
    (h : ∀ e ∈ es, (∃ x, e.1 = .text x) ∧ openedBy record around e.2 = .ok e.2) :
    openedEntries record around es = .ok es := by
  induction es with
  | nil => rfl
  | cons e es ih =>
    obtain ⟨k, v⟩ := e
    obtain ⟨⟨x, rfl⟩, he⟩ := h _ List.mem_cons_self
    rw [openedEntries, he, ih fun f hf ↦ h f (List.mem_cons_of_mem _ hf)]
    rfl

/-- In a value that can be written as JSON there is nothing to lay open. -/
theorem openedBy_of_isJson {v : Value} (h : v.IsJson floats) (around : List Value) :
    openedBy record around v = .ok v := by
  induction h generalizing around with
  | @list xs _ ih =>
    rw [openedBy, openedItems_eq fun x hx ↦ ih x hx _]
    split <;> rfl
  | @dict es hes _ ih =>
    rw [openedBy, openedEntries_eq fun e he ↦ ⟨hes.exists_text he, ih e he _⟩]
    split <;> rfl
  | _ => rfl

end Store

namespace Json

open Value (IsJson)

theorem settledItems_eq (done xs : List Value) :
    settledItems done xs = done.reverse ++ xs.map settled := by
  induction xs generalizing done with
  | nil => simp [settledItems]
  | cons x xs ih => simp [settledItems, ih]

theorem settledEntries_eq (done : Table Value) (es : List (Value × Value)) :
    settledEntries done es =
      (es.map fun e ↦ (e.1, settled e.2)).foldl (fun t e ↦ t.insert e.1 e.2) done := by
  induction es generalizing done with
  | nil => rfl
  | cons e es ih => rw [settledEntries, ih, List.map_cons, List.foldl_cons]

theorem settled_list (xs : List Value) (k : Nat) :
    settled (.list xs k) = .list (xs.map settled) := by
  rw [settled, settledItems_eq]
  rfl

theorem settled_dict (es : List (Value × Value)) (k : Nat) :
    settled (.dict es k) = .dict (Table.ofEntries (es.map fun e ↦ (e.1, settled e.2))) := by
  rw [settled, settledEntries_eq]
  rfl

theorem settled_of_isJson {v : Value} (h : v.IsJson floats) : settled v = v := by
  induction h with
  | @list xs _ ih => rw [settled_list, List.map_congr_left ih, List.map_id']
  | @dict es hes _ ih =>
    have hsame : (es.map fun e ↦ (e.1, settled e.2)) = es := by
      rw [List.map_congr_left (g := id) fun e he ↦ by simp [ih e he], List.map_id]
    rw [settled_dict, hsame, hes.ofEntries_eq]
  | _ => rfl

theorem isJson_settled_list {xs : List Value} (h : ∀ x ∈ xs, (settled x).IsJson floats) :
    (settled (.list xs)).IsJson floats := by
  rw [settled_list]
  exact .list (by simpa using h)

theorem of_mem_ofEntries {P : Value → Prop} {es : List (Value × Value)} (hes : ∀ e ∈ es, P e.2) :
    ∀ e ∈ Table.ofEntries es, P e.2 := by
  have hfold : ∀ t : Table Value, (∀ v ∈ t.entries, P v) →
      ∀ v ∈ (es.foldl (fun t e ↦ t.insert e.1 e.2) t).entries, P v := by
    induction es with
    | nil => exact fun t ht ↦ ht
    | cons e es ih =>
      intro t ht
      refine ih (fun f hf ↦ hes f (List.mem_cons_of_mem _ hf)) _ fun v hv ↦ ?_
      rcases Store.of_mem_entries_insert hv with rfl | hv
      · exact hes e List.mem_cons_self
      · exact ht v hv
  exact fun e he ↦ hfold [] (by simp [Table.entries]) e.2 (List.mem_map_of_mem he)

theorem isJson_settled_dict {es : List (Value × Value)}
    (h : ∀ e ∈ es, (∃ x, e.1 = .text x) ∧ (settled e.2).IsJson floats) :
    (settled (.dict es)).IsJson floats := by
  rw [settled_dict]
  refine .dict (Table.named_ofEntries ?_) (of_mem_ofEntries ?_)
  · exact List.forall_mem_map.2 fun e he ↦ (h e he).1
  · exact List.forall_mem_map.2 fun e he ↦ (h e he).2

/-- A value as it is read: names may be repeated in a dictionary. -/
inductive Written : Value → Prop
  | none : Written .none
  | bool (b : Bool) : Written (.bool b)
  | int (n : Int) : Written (.int n)
  | float (x : Float) : Written (.float x)
  | nan (stamp : Nat) : Written (.nan stamp)
  | text (s : String) : Written (.text s)
  | list {xs : List Value} : (∀ x ∈ xs, Written x) → Written (.list xs)
  | dict {es : List (Value × Value)} :
      (∀ e ∈ es, ∃ x, e.1 = .text x) → (∀ e ∈ es, Written e.2) → Written (.dict es)

theorem Written.isJson_settled {v : Value} (h : Written v) : (settled v).IsJson true := by
  induction h with
  | none => exact .none
  | bool b => exact .bool b
  | int n => exact .int n
  | float x => exact .float x rfl
  | nan stamp => exact .nan stamp rfl
  | text s => exact .text s
  | list _ ih => exact isJson_settled_list ih
  | dict hes _ ih => exact isJson_settled_dict fun e he ↦ ⟨hes e he, ih e he⟩

variable {origin : Origin} {stamp : Nat} {cs rest : List Char} {v : Value}

theorem written_of_mem_words {e : String × Value} (h : e ∈ words stamp) : Written e.2 := by
  simp only [words, List.mem_cons, List.not_mem_nil, or_false] at h
  rcases h with rfl | rfl | rfl | rfl | rfl | rfl
  exacts [.none, .bool _, .bool _, .nan _, .float _, .float _]

theorem written_scalar (h : scalar origin stamp cs = .ok (v, rest)) : Written v := by
  rw [scalar] at h
  split at h
  · next n _ _ =>
    split at h
    · cases h
    · cases h
      rw [Numeral.value]
      split
      · exact .int _
      · exact .float _
  · split at h
    · next r hr =>
      cases h
      obtain ⟨⟨w, x⟩, hw, hrest⟩ := List.exists_of_findSome?_eq_some hr
      obtain ⟨_, -, hpair⟩ := Option.map_eq_some_iff.1 hrest
      cases hpair
      exact written_of_mem_words hw
    · cases h

/-- What is read next is a value as it is written, whatever the limit, if what has been read of a
container is. -/
structure Reads (origin : Origin) (stamp n : Nat) : Prop where
  value : ∀ {cs v rest}, value origin stamp n cs = .ok (v, rest) → Written v
  members : ∀ {done cs v rest}, (∀ e ∈ done, (∃ x, e.1 = .text x) ∧ Written e.2) →
    members origin stamp n done cs = .ok (v, rest) → Written v
  items : ∀ {done cs v rest}, (∀ x ∈ done, Written x) →
    items origin stamp n done cs = .ok (v, rest) → Written v

variable {n : Nat} (hn : Reads origin stamp n)

include hn

theorem Reads.value_succ (h : Json.value origin stamp (n + 1) cs = .ok (v, rest)) : Written v := by
  unfold Json.value at h
  split at h
  · obtain ⟨p, -, hp⟩ := exists_of_map_ok h
    cases hp
    exact .text _
  · split at h
    · cases h
      exact .dict (by simp) (by simp)
    · exact hn.members (by simp) h
  · split at h
    · cases h
      exact .list (by simp)
    · exact hn.items (by simp) h
  · exact written_scalar h

theorem Reads.items_succ {done : List Value} (hdone : ∀ x ∈ done, Written x)
    (h : Json.items origin stamp (n + 1) done cs = .ok (v, rest)) : Written v := by
  unfold Json.items at h
  obtain ⟨p, hp, h⟩ := exists_of_bind_ok h
  have hall : ∀ x ∈ p.1 :: done, Written x := List.forall_mem_cons.2 ⟨hn.value hp, hdone⟩
  dsimp only at h
  split at h
  · cases h
    exact .list fun x hx ↦ hall x (List.mem_reverse.1 hx)
  · exact hn.items hall h
  · cases h

theorem Reads.members_succ {done : List (Value × Value)}
    (hdone : ∀ e ∈ done, (∃ x, e.1 = .text x) ∧ Written e.2)
    (h : Json.members origin stamp (n + 1) done cs = .ok (v, rest)) : Written v := by
  unfold Json.members at h
  split at h
  · obtain ⟨name, -, h⟩ := exists_of_bind_ok h
    dsimp only at h
    split at h
    · obtain ⟨p, hp, h⟩ := exists_of_bind_ok h
      have hall : ∀ e ∈ (.text name.1, p.1) :: done, (∃ x, e.1 = .text x) ∧ Written e.2 :=
        List.forall_mem_cons.2 ⟨⟨⟨name.1, rfl⟩, hn.value hp⟩, hdone⟩
      split at h
      · cases h
        exact .dict (fun e he ↦ (hall e (List.mem_reverse.1 he)).1) fun e he ↦
          (hall e (List.mem_reverse.1 he)).2
      · exact hn.members hall h
      · cases h
    · cases h
  · cases h

omit hn

theorem reads (origin : Origin) (stamp n : Nat) : Reads origin stamp n := by
  induction n with
  | zero => exact ⟨nofun, fun _ ↦ nofun, fun _ ↦ nofun⟩
  | succ n ih => exact ⟨ih.value_succ, ih.members_succ, ih.items_succ⟩

theorem written_of_readAll {source : String} (h : readAll origin stamp source = .ok v) :
    Written v := by
  dsimp only [readAll] at h
  split at h
  · cases h
  · obtain ⟨p, hp, h⟩ := exists_of_bind_ok h
    split at h
    · cases h
      exact (reads ..).value hp
    · cases h

theorem isJson_of_read {source : String} (h : read .file stamp source = .ok v) :
    (settled v).IsJson true := by
  obtain ⟨w, hw, h⟩ := exists_of_bind_ok h
  cases h
  exact (written_of_readAll hw).isJson_settled

end Json

namespace World

theorem exists_int_of_checkWhole {path : List Step} {v x : Value} (hv : v.IsJson floats)
    (h : checkWhole path v = .ok x) : ∃ n, x = .int n := by
  have hfloat (y : Float) (h : checkFloat path y = .ok x) : ∃ n, x = .int n := by
    rw [checkFloat] at h
    split at h
    · cases h
    · cases h
    · split at h
      · split at h
        · exact ⟨_, (Except.ok.inj h).symm⟩
        · cases h
      · cases h
  have htext (s : String) (h : checkWholeText path s = .ok x) : ∃ n, x = .int n := by
    rw [checkWholeText] at h
    split at h
    · cases h
    · split at h
      · exact ⟨_, (Except.ok.inj h).symm⟩
      · cases h
  cases hv with
  | none => cases h
  | bool b => exact ⟨_, (Except.ok.inj h).symm⟩
  | int n => exact ⟨_, (Except.ok.inj h).symm⟩
  | float y _ => exact hfloat y h
  | nan k _ =>
    simp only [checkWhole, Value.float?] at h
    exact hfloat _ h
  | text s => exact htext s h
  | list _ => cases h
  | dict _ _ => cases h

theorem isJson_of_checkTable {path : List Step} {v : Value} {t : Table Value} (hv : v.IsJson floats)
    (h : checkTable .value (anything .value) path v = .ok t) : (Value.dict t).IsJson floats := by
  cases hv with
  | dict hes hvalues =>
    obtain rfl := Except.ok.inj ((checkTable_of_named hes path 0).symm.trans h)
    exact .dict hes hvalues
  | _ => cases h

theorem isJson_of_fieldOr {es : List (Value × Value)}
    (hes : ∀ e ∈ es, e.2.IsJson floats) {path : List Step} {name : String} {t : Table Value}
    (h : fieldOr (checkTable .value (anything .value)) [] path es name = .ok t) :
    (Value.dict t).IsJson floats := by
  rw [fieldOr] at h
  split at h
  · next x hx =>
    obtain ⟨e, he, rfl⟩ := exists_mem_of_given? hx
    exact isJson_of_checkTable (hes e he) h
  · rw [← Except.ok.inj h]
    exact .dict Table.named_nil (by simp)

theorem isJson_globals {v : Value} {w : Spec} (hv : v.IsJson floats) (h : check .value v = .ok w) :
    (Value.dict w.globals).IsJson floats := by
  obtain ⟨es, k, rfl, hglobals, -⟩ := exists_of_checkWorld (of_mapError_ok h)
  cases hv with
  | dict _ hes => exact isJson_of_fieldOr hes hglobals

/-- The objects of a world that is given by JSON have whole numbers as sizes, and properties that
can be written as JSON. -/
theorem isJson_of_check {v : Value} {w : Spec} (hv : v.IsJson floats)
    (h : check .value v = .ok w) {o : ObjectSpec} (ho : o ∈ w.objects) :
    (∃ n, o.size = .int n) ∧ (Value.dict o.properties).IsJson floats := by
  obtain ⟨es, k, rfl, e, he, ys, hys, fs, l, hfs, path, hsize, hproperties⟩ :=
    exists_definition h ho
  have hfields : ∀ f ∈ fs, f.2.IsJson floats := by
    cases hv with
    | dict _ hes =>
      have hobjects := hes e he
      rcases hys with ⟨m, hys⟩ | hys
      · rw [hys] at hobjects
        cases hobjects with
        | list hitems =>
          cases hitems _ hfs with
          | dict _ hfields => exact hfields
      · rw [hys] at hobjects
        cases hobjects
  refine ⟨?_, isJson_of_fieldOr hfields hproperties⟩
  rw [fieldOr] at hsize
  split at hsize
  · next x hx =>
    obtain ⟨f, hf, rfl⟩ := exists_mem_of_given? hx
    exact exists_int_of_checkWhole (hfields f hf) hsize
  · exact ⟨0, (Except.ok.inj hsize).symm⟩

theorem exists_of_ofText {path source : String} {w : Spec} (h : Spec.ofText path source = .ok w) :
    ∃ v : Value, v.IsJson true ∧ check .value v = .ok w := by
  rw [Spec.ofText] at h
  split at h
  · cases h
  · next hread => exact ⟨_, Json.isJson_of_read hread, of_mapError_ok h⟩
  · cases h

end World

end Fable
