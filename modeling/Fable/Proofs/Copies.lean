import Fable.Object.Change
import Fable.Proofs.Naming

namespace Fable.Value

mutual

def refersBelow (n : Nat) : Value → Bool
  | object k => k < n
  | list xs _ | set xs => itemsReferBelow n xs
  | dict es _ => entriesReferBelow n es
  | command v d i _ => v.refersBelow n && d.refersBelow n && i.refersBelow n
  | outcome _ s m _ _ => s.refersBelow n && m.refersBelow n
  | _ => true

def itemsReferBelow (n : Nat) : List Value → Bool
  | [] => true
  | x :: xs => x.refersBelow n && itemsReferBelow n xs

def entriesReferBelow (n : Nat) : List (Value × Value) → Bool
  | [] => true
  | (k, v) :: es => k.refersBelow n && v.refersBelow n && entriesReferBelow n es

end

mutual

/-- The value without the stamps of containers. -/
def bare : Value → Value
  | list xs _ => list (bareItems xs)
  | dict es _ => dict (bareEntries es)
  | set xs => set (bareItems xs)
  | command v d i _ => command v.bare d.bare i.bare
  | outcome r s m ds _ => outcome r s.bare m.bare ds
  | v => v

def bareItems : List Value → List Value
  | [] => []
  | x :: xs => x.bare :: bareItems xs

def bareEntries : List (Value × Value) → List (Value × Value)
  | [] => []
  | (k, v) :: es => (k.bare, v.bare) :: bareEntries es

end

mutual

theorem bare_stamped (n : Nat) (v : Value) : (v.stamped n).1.bare = v.bare := by
  match v with
  | list xs 0 =>
    rw [stamped]
    split
    · simp [bare, bare_stampedItems]
    · rfl
  | dict es 0 =>
    rw [stamped]
    split
    · simp [bare, bare_stampedEntries]
    · rfl
  | command v d i 0 =>
    rw [stamped]
    split
    · simp [bare, bare_stamped _ v, bare_stamped _ d, bare_stamped _ i]
    · rfl
  | outcome r s m ds 0 =>
    rw [stamped]
    split
    · simp [bare, bare_stamped _ s, bare_stamped _ m]
    · rfl
  | list xs (k + 1) | dict es (k + 1) | command v d i (k + 1) | outcome r s m ds (k + 1) => rfl
  | none | bool _ | int _ | float _ | nan _ | text _ | set _ | fatal | directive _ | message _
  | routine _ | object _ => rfl

theorem bare_stampedItems (n : Nat) (xs : List Value) :
    bareItems (stampedItems n xs).1 = bareItems xs := by
  match xs with
  | [] => rfl
  | x :: xs => simp [stampedItems, bareItems, bare_stamped _ x, bare_stampedItems _ xs]

theorem bare_stampedEntries (n : Nat) (es : List (Value × Value)) :
    bareEntries (stampedEntries n es).1 = bareEntries es := by
  match es with
  | [] => rfl
  | (k, v) :: es =>
    simp [stampedEntries, bareEntries, bare_stamped _ k, bare_stamped _ v, bare_stampedEntries _ es]

end

def isPlainName : Value → Bool
  | command .. => false
  | v => v.hashable

mutual

def namedPlainly : Value → Bool
  | list xs _ => itemsNamedPlainly xs
  | set xs => xs.all isPlainName
  | dict es _ => entriesNamedPlainly es
  | command v d i _ => v.namedPlainly && d.namedPlainly && i.namedPlainly
  | outcome _ s m _ _ => s.namedPlainly && m.namedPlainly
  | _ => true

def itemsNamedPlainly : List Value → Bool
  | [] => true
  | x :: xs => x.namedPlainly && itemsNamedPlainly xs

def entriesNamedPlainly : List (Value × Value) → Bool
  | [] => true
  | (k, v) :: es => k.isPlainName && v.namedPlainly && entriesNamedPlainly es

end

theorem hashable_of_isPlainName {v : Value} (h : v.isPlainName) : v.hashable := by
  cases v <;> first | exact h | simp [isPlainName] at h

/-- What can name something is a plain name or a command of such values. -/
theorem hashable_induction {P : Value → Prop} (plain : ∀ v, v.isPlainName → P v)
    (command : ∀ v d i k, P v → P d → P i → P (.command v d i k)) (v : Value)
    (h : v.hashable) : P v := by
  match v with
  | .command v d i k =>
    simp only [hashable, Bool.and_eq_true] at h
    exact command v d i k (hashable_induction plain command v h.1.1)
      (hashable_induction plain command d h.1.2) (hashable_induction plain command i h.2)
  | list _ _ | dict _ _ | set _ | object _ | outcome _ _ _ _ _ => simp [hashable] at h
  | none | bool _ | int _ | float _ | nan _ | text _ | fatal | directive _
  | message _ | routine _ =>
    exact plain _ h

theorem refersBelow_of_hashable (n : Nat) (v : Value) (h : v.hashable) : v.refersBelow n := by
  refine hashable_induction (P := (refersBelow n ·)) (fun v h ↦ ?_) (fun v d i k hv hd hi ↦ ?_) v h
  · cases v <;> first | rfl | simp [isPlainName, hashable] at h
  · simp [refersBelow, hv, hd, hi]

theorem namedPlainly_of_hashable (v : Value) (h : v.hashable) : v.namedPlainly := by
  refine hashable_induction (P := (namedPlainly ·)) (fun v h ↦ ?_) (fun v d i k hv hd hi ↦ ?_) v h
  · cases v <;> first | rfl | simp [isPlainName, hashable] at h
  · simp [namedPlainly, hv, hd, hi]

theorem exists_eq_dict_of_bare {v : Value} {t : List (Value × Value)} (h : v.bare = dict t) :
    ∃ es k, v = dict es k ∧ bareEntries es = t := by
  cases v <;> simp only [bare, reduceCtorEq, dict.injEq, and_true] at h
  exact ⟨_, _, rfl, h⟩

end Fable.Value

namespace Fable.Store

variable {record record' : Opening} {n : Nat}

mutual

/-- It does not matter what becomes of records that the value does not refer to. -/
theorem openedBy_congr (h : ∀ around k, k < n → record around k = record' around k)
    (around : List Value) (v : Value) (hv : v.refersBelow n) :
    openedBy record around v = openedBy record' around v := by
  match v with
  | .list xs k =>
    rw [openedBy, openedBy, openedItems_congr h _ xs hv]
  | .set xs =>
    rw [openedBy, openedBy, openedItems_congr h _ xs hv]
  | .dict es k =>
    rw [openedBy, openedBy, openedEntries_congr h _ es hv]
  | .object k =>
    rw [openedBy, openedBy, h around k (of_decide_eq_true hv)]
  | .command v d i k =>
    simp only [Value.refersBelow, Bool.and_eq_true] at hv
    rw [openedBy, openedBy, openedBy_congr h _ v hv.1.1, openedBy_congr h _ d hv.1.2,
      openedBy_congr h _ i hv.2]
  | .outcome r s m ds k =>
    simp only [Value.refersBelow, Bool.and_eq_true] at hv
    rw [openedBy, openedBy, openedBy_congr h _ s hv.1, openedBy_congr h _ m hv.2]
  | .none | .bool _ | .int _ | .float _ | .nan _ | .text _ | .fatal | .directive _ | .message _
  | .routine _ => rfl

theorem openedItems_congr (h : ∀ around k, k < n → record around k = record' around k)
    (around : List Value) (xs : List Value) (hxs : Value.itemsReferBelow n xs) :
    openedItems record around xs = openedItems record' around xs := by
  match xs with
  | [] => rfl
  | x :: xs =>
    simp only [Value.itemsReferBelow, Bool.and_eq_true] at hxs
    rw [openedItems, openedItems, openedBy_congr h _ x hxs.1, openedItems_congr h _ xs hxs.2]

theorem openedEntries_congr (h : ∀ around k, k < n → record around k = record' around k)
    (around : List Value) (es : List (Value × Value)) (hes : Value.entriesReferBelow n es) :
    openedEntries record around es = openedEntries record' around es := by
  match es with
  | [] => rfl
  | (k, v) :: es =>
    simp only [Value.entriesReferBelow, Bool.and_eq_true] at hes
    rw [openedEntries, openedEntries, openedBy_congr h _ k hes.1.1, openedBy_congr h _ v hes.1.2,
      openedEntries_congr h _ es hes.2]

end

theorem openedPart_congr (h : ∀ around k, k < n → record around k = record' around k)
    (around : List Value) (name : String) {v : Value} (hv : v.refersBelow n) :
    openedPart record around name v = openedPart record' around name v := by
  unfold openedPart
  split
  · rw [openedEntries_congr h _ _ hv]
  · rw [openedBy_congr h _ _ hv]

theorem mapM_congr_of_mem {α β ε : Type} {f g : α → Except ε β} {xs : List α}
    (h : ∀ x ∈ xs, f x = g x) : xs.mapM f = xs.mapM g := by
  induction xs with
  | nil => rfl
  | cons x xs ih =>
    rw [List.mapM_cons, List.mapM_cons, h x (by simp), ih fun y hy ↦ h y (by simp [hy])]

/-- A record that refers to no others is laid open in the same way wherever it is kept. -/
theorem openedRecord_congr {s t : Store} {k : Nat} {r : Record} (hs : s.record? k = some r)
    (ht : t.record? k = some r) (hr : ∀ p ∈ r.parts, p.2.refersBelow 0) (d e : Nat)
    (around : List Value) :
    s.openedRecord (d + 1) around k = t.openedRecord (e + 1) around k := by
  simp only [openedRecord, hs, ht]
  split
  · rfl
  · have hparts :
        r.parts.mapM (fun p ↦ openedPart (s.openedRecord d) (.object k :: around) p.1 p.2) =
        r.parts.mapM fun p ↦ openedPart (t.openedRecord e) (.object k :: around) p.1 p.2 := by
      refine mapM_congr_of_mem fun p hp ↦ ?_
      exact openedPart_congr (fun _ k hk ↦ absurd hk (Nat.not_lt_zero k)) _ _ (hr p hp)
    rw [hparts]

theorem opened_congr {s t : Store} {r : Record} (hs : s.record? 0 = some r)
    (ht : t.record? 0 = some r) (hr : ∀ p ∈ r.parts, p.2.refersBelow 0) {table : Table Value}
    (htable : Value.entriesReferBelow 1 table) : s.opened table = t.opened table := by
  refine openedEntries_congr (fun around k hk ↦ ?_) [] table htable
  obtain rfl : k = 0 := Nat.lt_one_iff.1 hk
  exact openedRecord_congr hs ht hr s.made t.made around

theorem openedBy_of_isPlainName (record : Opening) (around : List Value)
    {v : Value} (h : v.isPlainName) :
    openedBy record around v = .ok v := by
  cases v <;> first | rfl | simp [Value.isPlainName, Value.hashable] at h

theorem openedItems_of_isPlainName (record : Opening) (around : List Value) {xs : List Value}
    (h : xs.all Value.isPlainName) : openedItems record around xs = .ok xs := by
  induction xs with
  | nil => rfl
  | cons x xs ih =>
    simp only [List.all_cons, Bool.and_eq_true] at h
    rw [openedItems, openedBy_of_isPlainName record around h.1, ih h.2]
    rfl

mutual

/-- Only a key or a member that is laid open stands in the way of a copy. -/
theorem exists_openedBy (h : ∀ around k, ∃ w, record around k = .ok w)
    (around : List Value) (v : Value) (hv : v.namedPlainly) :
    ∃ w, openedBy record around v = .ok w := by
  match v with
  | .list xs k =>
    obtain ⟨ys, hys⟩ := exists_openedItems h (.list xs k :: around) xs hv
    rw [openedBy, hys]
    split <;> exact ⟨_, rfl⟩
  | .set xs =>
    have hxs : xs.all Value.hashable :=
      List.all_eq_true.2 fun x hx ↦ Value.hashable_of_isPlainName (List.all_eq_true.1 hv x hx)
    rw [openedBy, openedItems_of_isPlainName record around hv]
    exact ⟨.set (Members.ofList xs).inOrder, by simp only [bind, Except.bind, hxs]; rfl⟩
  | .dict es k =>
    obtain ⟨fs, hfs⟩ := exists_openedEntries h (.dict es k :: around) es hv
    rw [openedBy, hfs]
    split <;> exact ⟨_, rfl⟩
  | .object k => exact h around k
  | .command v d i k =>
    simp only [Value.namedPlainly, Bool.and_eq_true] at hv
    obtain ⟨v', hv'⟩ := exists_openedBy h (.command v d i k :: around) v hv.1.1
    obtain ⟨d', hd'⟩ := exists_openedBy h (.command v d i k :: around) d hv.1.2
    obtain ⟨i', hi'⟩ := exists_openedBy h (.command v d i k :: around) i hv.2
    rw [openedBy, hv', hd', hi']
    split <;> exact ⟨_, rfl⟩
  | .outcome r s m ds k =>
    simp only [Value.namedPlainly, Bool.and_eq_true] at hv
    obtain ⟨s', hs'⟩ := exists_openedBy h (.outcome r s m ds k :: around) s hv.1
    obtain ⟨m', hm'⟩ := exists_openedBy h (.outcome r s m ds k :: around) m hv.2
    rw [openedBy, hs', hm']
    split <;> exact ⟨_, rfl⟩
  | .none | .bool _ | .int _ | .float _ | .nan _ | .text _ | .fatal | .directive _ | .message _
  | .routine _ => exact ⟨_, rfl⟩

theorem exists_openedItems (h : ∀ around k, ∃ w, record around k = .ok w) (around : List Value)
    (xs : List Value) (hxs : Value.itemsNamedPlainly xs) :
    ∃ ys, openedItems record around xs = .ok ys := by
  match xs with
  | [] => exact ⟨[], rfl⟩
  | x :: xs =>
    simp only [Value.itemsNamedPlainly, Bool.and_eq_true] at hxs
    obtain ⟨y, hy⟩ := exists_openedBy h around x hxs.1
    obtain ⟨ys, hys⟩ := exists_openedItems h around xs hxs.2
    rw [openedItems, hy, hys]
    exact ⟨y :: ys, rfl⟩

theorem exists_openedEntries (h : ∀ around k, ∃ w, record around k = .ok w) (around : List Value)
    (es : List (Value × Value)) (hes : Value.entriesNamedPlainly es) :
    ∃ fs, openedEntries record around es = .ok fs := by
  match es with
  | [] => exact ⟨[], rfl⟩
  | (k, v) :: es =>
    simp only [Value.entriesNamedPlainly, Bool.and_eq_true] at hes
    obtain ⟨w, hw⟩ := exists_openedBy h around v hes.1.2
    obtain ⟨fs, hfs⟩ := exists_openedEntries h around es hes.2
    refine ⟨(k, w) :: fs, ?_⟩
    rw [openedEntries, openedBy_of_isPlainName record around hes.1.1, hw, hfs]
    simp only [bind, Except.bind, Value.hashable_of_isPlainName hes.1.1]
    rfl

end

theorem exists_mapM {α β ε : Type} {f : α → Except ε β} {xs : List α}
    (h : ∀ x ∈ xs, ∃ y, f x = .ok y) :
    ∃ ys, xs.mapM f = .ok ys := by
  induction xs with
  | nil => exact ⟨[], rfl⟩
  | cons x xs ih =>
    obtain ⟨y, hy⟩ := h x List.mem_cons_self
    obtain ⟨ys, hys⟩ := ih fun z hz ↦ h z (List.mem_cons_of_mem _ hz)
    rw [List.mapM_cons, hy, hys]
    exact ⟨y :: ys, rfl⟩

theorem exists_openedPart (h : ∀ around k, ∃ w, record around k = .ok w) (around : List Value)
    (name : String) {v : Value} (hv : v.namedPlainly) :
    ∃ p, openedPart record around name v = .ok p := by
  unfold openedPart
  split
  · next es k =>
    obtain ⟨fs, hfs⟩ := exists_openedEntries h around es hv
    rw [hfs]
    exact ⟨_, rfl⟩
  · obtain ⟨w, hw⟩ := exists_openedBy h around _ hv
    rw [hw]
    exact ⟨_, rfl⟩

theorem exists_openedRecord {s : Store}
    (hs : ∀ k r, s.record? k = some r → ∀ p ∈ r.parts, p.2.namedPlainly) (d : Nat)
    (around : List Value) (k : Nat) : ∃ w, s.openedRecord d around k = .ok w := by
  induction d generalizing around k with
  | zero => exact ⟨_, rfl⟩
  | succ d ih =>
    simp only [openedRecord]
    split
    · exact ⟨_, rfl⟩
    · split
      · next r hr =>
        obtain ⟨parts, hparts⟩ := exists_mapM fun p hp ↦
          exists_openedPart ih (.object k :: around) p.1 (hs k r hr p hp)
        rw [hparts]
        exact ⟨.dict parts, rfl⟩
      · exact ⟨_, rfl⟩

/-- A table can be copied, if keys and members are plain names in it and in all that the records
say. -/
theorem exists_opened {s : Store}
    (hs : ∀ k r, s.record? k = some r → ∀ p ∈ r.parts, p.2.namedPlainly) {t : Table Value}
    (ht : Value.entriesNamedPlainly t) : ∃ t', s.opened t = .ok t' :=
  exists_openedEntries (exists_openedRecord hs (s.made + 1)) [] t ht

/-- Of all records that the store has, or had, this is the only one with the serial number 0. -/
structure RemembersFirst (s : Store) (r : Record) : Prop where
  mem : r ∈ s.records.entries ++ s.retired
  serial : r.serial = 0
  unique : ∀ q ∈ s.records.entries ++ s.retired, q.serial = 0 → q = r
  made : 0 < s.made

theorem RemembersFirst.record? {s : Store} {r : Record} (h : s.RemembersFirst r) :
    s.record? 0 = some r := by
  obtain ⟨q, hq⟩ := Option.isSome_iff_exists.1
    (List.find?_isSome.2 ⟨r, h.mem, beq_iff_eq.2 h.serial⟩ :
      ((s.records.entries ++ s.retired).find? (·.serial == 0)).isSome)
  have h0 : q.serial = 0 := by simpa using List.find?_some hq
  rw [Store.record?, hq, h.unique q (List.mem_of_find?_eq_some hq) h0]

theorem of_mem_entries_insert {α : Type} {t : Table α} {key : Value} {r q : α}
    (h : q ∈ (t.insert key r).entries) : q = r ∨ q ∈ Table.entries t := by
  induction t with
  | nil => exact .inl (List.mem_singleton.1 h)
  | cons e t ih =>
    rw [Table.insert] at h
    split at h
    · rcases List.mem_cons.1 h with h | h
      · exact .inl h
      · exact .inr (List.mem_cons_of_mem _ h)
    · rcases List.mem_cons.1 h with h | h
      · exact .inr (h ▸ List.mem_cons_self)
      · exact (ih h).imp_right (List.mem_cons_of_mem _)

/-- A record that is not kept is the one that was replaced. -/
theorem mem_entries_insert_or {t : Table Record} (key : Value) (r : Record) {q : Record}
    (h : q ∈ t.entries) : q ∈ (t.insert key r).entries ∨ t.find? key = some q := by
  induction t with
  | nil => simp [Table.entries] at h
  | cons e t ih =>
    rw [Table.insert, Table.find?_cons]
    split
    · rcases List.mem_cons.1 h with rfl | h
      · exact .inr rfl
      · exact .inl (List.mem_cons_of_mem _ h)
    · rcases List.mem_cons.1 h with rfl | h
      · exact .inl List.mem_cons_self
      · exact (ih h).imp_left (List.mem_cons_of_mem _)

theorem RemembersFirst.leave {s : Store} {r : Record} (h : s.RemembersFirst r) (id : Value) :
    (s.leave id).RemembersFirst r := by
  unfold Store.leave
  split
  · exact ⟨h.mem, h.serial, h.unique, h.made⟩
  · exact h

theorem RemembersFirst.enter {s : Store} {r q : Record} (h : s.RemembersFirst r)
    (hq : q.serial = s.made) : (s.enter q).RemembersFirst r where
  mem := by
    rw [Store.enter, attach]
    rcases List.mem_append.1 h.mem with hr | hr
    · rcases mem_entries_insert_or q.id q hr with hr | hr
      · exact List.mem_append_left _ hr
      · exact List.mem_append_right _ (List.mem_append_left _ (Option.mem_toList.2 hr))
    · exact List.mem_append_right _ (List.mem_append_right _ hr)
  serial := h.serial
  unique p hp h0 := by
    rw [Store.enter, attach] at hp
    simp only [List.mem_append] at hp
    rcases hp with hp | hp | hp
    · rcases of_mem_entries_insert hp with rfl | hp
      · exact absurd (h0.symm.trans hq) (Nat.ne_of_lt h.made)
      · exact h.unique p (List.mem_append_left _ hp) h0
    · obtain ⟨e, he, rfl⟩ := Option.map_eq_some_iff.1 (Option.mem_toList.1 hp)
      have hmem := List.mem_map_of_mem (f := Prod.snd) (List.mem_of_find?_eq_some he)
      exact h.unique e.2 (List.mem_append_left _ hmem) h0
    · exact h.unique p (List.mem_append_right _ hp) h0
  made := Nat.succ_pos s.made

end Fable.Store

namespace Fable.Record

def bare (r : Record) : Record :=
  { r with serial := 0, properties := Value.bareEntries r.properties }

theorem bare_setFields (fields : List (Field × Value)) (r : Record) :
    (fields.foldl (fun r e ↦ r.setField e.1 e.2) r).bare =
      fields.foldl (fun r e ↦ r.setField e.1 e.2) r.bare := by
  induction fields generalizing r with
  | nil => rfl
  | cons e fields ih =>
    have he : (r.setField e.1 e.2).bare = r.bare.setField e.1 e.2 := by cases e.1 <;> rfl
    rw [List.foldl_cons, List.foldl_cons, ih, he]

theorem exists_bare_eq {a : Attributes} {id : Value} {es t : List (Value × Value)} {k l m n : Nat}
    {r : Record} (h : Value.bareEntries es = Value.bareEntries t)
    (hr : ({ a with properties := .dict es k } : Attributes).record id m = .ok r) :
    ∃ q, ({ a with properties := .dict t l } : Attributes).record id n = .ok q ∧
      q.bare = r.bare := by
  cases hf : a.flags.toFlags with
  | error f => simp [Attributes.record, hf, bind, Except.bind] at hr
  | ok flags =>
    simp only [Attributes.record, hf, Value.toTable, bind, Except.bind, pure, Except.pure,
      Except.ok.injEq] at hr
    refine ⟨_, by simp only [Attributes.record, hf, Value.toTable, bind, Except.bind]; rfl, ?_⟩
    rw [← hr, bare_setFields, bare_setFields]
    simp only [bare, h]

end Fable.Record
