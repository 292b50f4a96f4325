import Fable.Proofs.Containment
import Fable.Proofs.Runs
import Mathlib.Data.List.Induction

namespace Fable

structure Attributes.WellTyped (a : Attributes) : Prop where
  parent : a.parent.IsPlace
  flags : ∃ m, a.flags.toFlags = .ok m
  properties : ∃ t, a.properties.toTable = .ok t

theorem exists_eq_ok_iff {α : Type} (e : Except Fault α) : (∃ a, e = .ok a) ↔ e.isOk := by
  cases e <;> simp [Except.isOk, Except.toBool]

instance (a : Attributes) : Decidable a.WellTyped :=
  decidable_of_iff (a.parent.IsPlace ∧ a.flags.toFlags.isOk ∧ a.properties.toTable.isOk)
    ⟨fun ⟨hp, hf, ht⟩ ↦ ⟨hp, (exists_eq_ok_iff _).2 hf, (exists_eq_ok_iff _).2 ht⟩,
      fun ⟨hp, hf, ht⟩ ↦ ⟨hp, (exists_eq_ok_iff _).1 hf, (exists_eq_ok_iff _).1 ht⟩⟩

namespace Store

inductive Call
  | define (id : Value) (a : Attributes)
  | move (id into : Value)
  | remove (id : Value)
  | setFlag (id flag : Value)
  | clearFlag (id flag : Value)
  | setProperty (id key value : Value)

namespace Call

def run : Call → Change Unit
  | define id a => discard (Store.define id a)
  | move id into => Store.move id into
  | remove id => Store.remove id
  | setFlag id flag => Store.setFlag id flag
  | clearFlag id flag => Store.clearFlag id flag
  | setProperty id key value => Store.setProperty id key value

def after (c : Call) (s : Store) : Store :=
  match c.run s with
  | .ok _ t => t
  | .error _ t => t

def accepted (c : Call) (s : Store) : Bool :=
  match c.run s with
  | .ok .. => true
  | .error .. => false

/-- Objects are named by texts, and so are the places they are put. -/
def WellTyped : Call → Prop
  | define id a => id.isText ∧ a.WellTyped
  | move id into => id.isText ∧ into.IsPlace
  | remove id | setFlag id _ | clearFlag id _ | setProperty id _ _ => id.isText

instance : DecidablePred WellTyped
  | define .. | move .. => inferInstanceAs (Decidable (_ ∧ _))
  | remove _ | setFlag .. | clearFlag .. | setProperty .. => inferInstanceAs (Decidable (_ = true))

def placement? : Call → Option Arrival
  | define id a => some ⟨id, a.parent⟩
  | move id into => some ⟨id, into⟩
  | remove id => some ⟨id, .none⟩
  | setFlag .. | clearFlag .. | setProperty .. => none

end Call

/-- The stores to which well-typed calls lead, the refused ones among them included. -/
inductive Reachable : Store → Prop
  | empty : Reachable {}
  | call {s : Store} {c : Call} : Reachable s → c.WellTyped → Reachable (c.after s)

def history (calls : List Call) : Store :=
  calls.foldl (fun s c ↦ c.after s) {}

theorem history_append (calls : List Call) (c : Call) :
    history (calls ++ [c]) = c.after (history calls) := by
  simp [history]

theorem reachable_history {calls : List Call} (h : ∀ c ∈ calls, c.WellTyped) :
    Reachable (history calls) := by
  induction calls using List.reverseRecOn with
  | nil => exact .empty
  | append_singleton calls c ih =>
    rw [history_append]
    exact .call (ih fun d hd ↦ h d (by simp [hd])) (h c (by simp))

structure Keeps (s t : Store) : Prop where
  parent : ∀ x, x.isText → t.parent x = s.parent x
  isDefined : ∀ x, x.isText → t.isDefined x = s.isDefined x
  arrivals : t.arrivals = s.arrivals

structure Places (s : Store) (id into : Value) (t : Store) : Prop where
  isText : id.isText
  isPlace : into.IsPlace
  free : s.obstacle? id into = none
  parent : ∀ x, x.isText → t.parent x = if id.string? = x.string? then into else s.parent x
  isDefined : ∀ x, x.isText → t.isDefined x = (id.string? == x.string? || s.isDefined x)
  arrivals : t.arrivals = (s.leave id).arrivals ++ [⟨id, into⟩]

theorem Keeps.refl (s : Store) : Keeps s s := ⟨fun _ _ ↦ rfl, fun _ _ ↦ rfl, rfl⟩

variable {s : Store}

theorem lookup?_update {id x : Value} (hid : id.isText) (hx : x.isText) (f : Record → Record) :
    (s.update id f).lookup? x =
      if id.string? = x.string? then (s.lookup? x).map f else s.lookup? x :=
  Table.find?_modify s.records hid hx f

theorem keeps_update {id : Value} (hid : id.isText) {f : Record → Record}
    (hf : ∀ r, (f r).parent = r.parent) : Keeps s (s.update id f) where
  parent x hx := by
    simp only [parent, find?_eq_lookup? _ hx, lookup?_update hid hx]
    by_cases h : id.string? = x.string? <;> cases s.lookup? x <;> simp [h, hf]
  isDefined x hx := by
    simp only [isDefined, find?_eq_lookup? _ hx, lookup?_update hid hx]
    split <;> simp
  arrivals := rfl

@[simp] theorem leave_records (id : Value) : (s.leave id).records = s.records := by
  unfold leave
  split <;> rfl

theorem leave_made (id : Value) : (s.leave id).made = s.made := by
  unfold leave
  split <;> rfl

theorem lookup?_enter {r : Record} (hr : r.id.isText) (x : Value) :
    ((s.leave r.id).enter r).lookup? x =
      if r.id.string? = x.string? then some r else s.lookup? x := by
  rw [lookup?, enter, attach, leave_records]
  exact Table.find?_insert s.records hr x r

theorem lookup?_transfer {id x source into : Value} {r : Record} (hid : id.isText) (hx : x.isText)
    (hr : s.find? id = some r) : (s.transfer id source into).lookup? x =
      if id.string? = x.string? then some { r with parent := into } else s.lookup? x := by
  have hl : (s.transfer id source into).lookup? x =
      (s.update id fun r ↦ { r with parent := into }).lookup? x := rfl
  rw [hl, lookup?_update hid hx]
  by_cases h : id.string? = x.string?
  · rw [find?_congr s hid h, find?_eq_lookup? s hx] at hr
    simp [h, hr]
  · simp [h]

theorem Places.of_lookup? {id into : Value} {t : Store} {q : Record} (hid : id.isText)
    (hp : into.IsPlace) (hfree : s.obstacle? id into = none) (hq : q.parent = into)
    (hl : ∀ x, x.isText → t.lookup? x = if id.string? = x.string? then some q else s.lookup? x)
    (ha : t.arrivals = (s.leave id).arrivals ++ [⟨id, into⟩]) : Places s id into t where
  isText := hid
  isPlace := hp
  free := hfree
  parent x hx := by
    simp only [Store.parent, find?_eq_lookup? _ hx, hl x hx]
    by_cases h : id.string? = x.string? <;> simp [h, hq]
  isDefined x hx := by
    simp only [Store.isDefined, find?_eq_lookup? _ hx, hl x hx]
    by_cases h : id.string? = x.string? <;> simp [h]
  arrivals := ha

theorem places_enter {r : Record} (hr : r.id.isText) (hp : r.parent.IsPlace)
    (hfree : s.obstacle? r.id r.parent = none) :
    Places s r.id r.parent ((s.leave r.id).enter r) :=
  .of_lookup? hr hp hfree rfl (fun x _ ↦ lookup?_enter hr x) rfl

theorem places_transfer {id into : Value} {r : Record} (hid : id.isText) (hp : into.IsPlace)
    (hfree : s.obstacle? id into = none) (hr : s.find? id = some r) :
    Places s id into (s.transfer id r.parent into) := by
  refine .of_lookup? hid hp hfree rfl (fun _ hx ↦ lookup?_transfer hid hx hr) ?_
  rw [find?_eq_lookup? s hid] at hr
  simp only [transfer, attach, update, leave, hr]

theorem setField_parent (r : Record) (f : Field) (v : Value) :
    (r.setField f v).parent = r.parent := by
  cases f <;> rfl

theorem setField_id (r : Record) (f : Field) (v : Value) : (r.setField f v).id = r.id := by
  cases f <;> rfl

theorem setField_serial (r : Record) (f : Field) (v : Value) :
    (r.setField f v).serial = r.serial := by
  cases f <;> rfl

theorem setFields_place (fields : List (Field × Value)) (r : Record) :
    (fields.foldl (fun r e ↦ r.setField e.1 e.2) r).id = r.id ∧
      (fields.foldl (fun r e ↦ r.setField e.1 e.2) r).parent = r.parent ∧
      (fields.foldl (fun r e ↦ r.setField e.1 e.2) r).serial = r.serial := by
  induction fields generalizing r with
  | nil => exact ⟨rfl, rfl, rfl⟩
  | cons e fields ih =>
    rw [List.foldl_cons, (ih _).1, (ih _).2.1, (ih _).2.2]
    exact ⟨setField_id r e.1 e.2, setField_parent r e.1 e.2, setField_serial r e.1 e.2⟩

theorem record_place {a : Attributes} {id : Value} {n : ℕ} {r : Record}
    (h : a.record id n = .ok r) :
    r.id = id ∧ r.parent = a.parent ∧ r.serial = n := by
  unfold Attributes.record at h
  cases hf : a.flags.toFlags with
  | error f => simp [hf, bind, Except.bind] at h
  | ok flags =>
    cases hp : a.properties.toTable with
    | error f => simp [hf, hp, bind, Except.bind] at h
    | ok properties =>
      simp only [hf, hp, bind, Except.bind, pure, Except.pure, Except.ok.injEq] at h
      subst h
      exact setFields_place a.fields _

theorem exists_record {a : Attributes} (ha : a.WellTyped) (id : Value) (n : ℕ) :
    ∃ r, a.record id n = .ok r := by
  obtain ⟨m, hm⟩ := ha.flags
  obtain ⟨t, ht⟩ := ha.properties
  exact ⟨_, by simp only [Attributes.record, hm, ht, bind, Except.bind]; rfl⟩

theorem refusal?_eq_none_iff {id : Value} (hid : id.isText) (a : Attributes) :
    s.refusal? id a = none ↔
      a.clashing = false ∧ a.unknown = [] ∧ s.obstacle? id a.parent = none := by
  unfold refusal?
  cases a.clashing <;> cases a.unknown <;> cases s.obstacle? id a.parent <;>
    simp [Value.hashable_of_isText hid]

/-- A definition is refused before anything is done, or it puts the object where it says. -/
theorem define_cases {id : Value} {a : Attributes} (hid : id.isText)
    (ha : a.WellTyped) (s : Store) :
    (∃ f, s.refusal? id a = some f ∧ define id a s = .error f s) ∨
      ∃ r, a.record id s.made = .ok r ∧
        define id a s = .ok (.object s.made) ((s.leave id).enter r) ∧
        Places s id a.parent ((s.leave id).enter r) := by
  cases hf : s.refusal? id a with
  | some f => exact .inl ⟨f, rfl, by simp only [define, hf]⟩
  | none =>
    obtain ⟨r, hr⟩ := exists_record ha id s.made
    obtain ⟨rfl, hp, -⟩ := record_place hr
    have hfree := ((refusal?_eq_none_iff hid a).1 hf).2.2
    rw [← hp] at hfree ⊢
    refine .inr ⟨r, hr, ?_, places_enter hid (hp ▸ ha.parent) hfree⟩
    simp only [define, hf, hr]

theorem move_cases {id into : Value} (hid : id.isText) (hp : into.IsPlace) (s : Store) :
    (∃ f, s.obstacle? id into = some f ∧ move id into s = .error f s) ∨
      (s.isDefined id = false ∧ move id into s = .ok () s) ∨
      ∃ t, move id into s = .ok () t ∧ Places s id into t := by
  have hh := Value.hashable_of_isText hid
  cases hr : s.find? id with
  | none => exact .inr (.inl ⟨by simp [isDefined, hr], by simp [move, hh, hr]⟩)
  | some r =>
    cases ho : s.obstacle? id into with
    | some f => exact .inl ⟨f, rfl, by simp [move, hh, hr, ho]⟩
    | none =>
      exact .inr (.inr ⟨_, by simp [move, hh, hr, ho], places_transfer hid hp ho hr⟩)

theorem edit_keeps {id : Value} (hid : id.isText) (objection : Option Fault) {f : Record → Record}
    (hf : ∀ r, (f r).parent = r.parent) (s : Store) :
    (∃ e, edit id objection f s = .error e s) ∨
      ∃ t, edit id objection f s = .ok () t ∧ Keeps s t := by
  have hh := Value.hashable_of_isText hid
  cases hd : s.isDefined id with
  | false => exact .inr ⟨s, by simp [edit, hh, hd], .refl s⟩
  | true =>
    cases objection with
    | some e => exact .inl ⟨e, by simp [edit, hh, hd]⟩
    | none => exact .inr ⟨_, by simp [edit, hh, hd], keeps_update hid hf⟩

theorem of_move_ok {id into : Value} {t : Store} (h : move id into s = .ok () t) :
    t = s ∨ ∃ r, s.find? id = some r ∧ s.obstacle? id into = none ∧
      t = s.transfer id r.parent into := by
  unfold move at h
  split at h
  · simp at h
  · cases hr : s.find? id with
    | none =>
      simp only [hr, EStateM.Result.ok.injEq, true_and] at h
      exact .inl h.symm
    | some r =>
      cases ho : s.obstacle? id into with
      | some f => simp [hr, ho] at h
      | none =>
        simp only [hr, ho, EStateM.Result.ok.injEq, true_and] at h
        exact .inr ⟨r, rfl, rfl, h.symm⟩

theorem eq_transfer_of_move {id into : Value} {t : Store} {r : Record} (hr : s.find? id = some r)
    (h : move id into s = .ok () t) : t = s.transfer id r.parent into := by
  unfold move at h
  grind

theorem of_move_error {id into : Value} {t : Store} {f : Fault}
    (h : move id into s = .error f t) : t = s := by
  unfold move at h
  grind

theorem of_edit_ok {id : Value} {t : Store} {objection : Option Fault} {f : Record → Record}
    (h : edit id objection f s = .ok () t) : t = s ∨ t = s.update id f := by
  unfold edit at h
  grind

theorem of_edit_error {id : Value} {t : Store} {objection : Option Fault}
    {f : Record → Record} {e : Fault} (h : edit id objection f s = .error e t) : t = s := by
  unfold edit at h
  grind

end Store

end Fable
