import Fable.Value.Basic

namespace Fable

namespace Value

def IsPlace (v : Value) : Prop := v.isNone ∨ v.isText

instance (v : Value) : Decidable v.IsPlace :=
  inferInstanceAs (Decidable (_ ∨ _))

theorem isPlace_none : none.IsPlace := .inl rfl

theorem IsPlace.of_isText {v : Value} (h : v.isText) : v.IsPlace := .inr h

theorem isText_iff {v : Value} : v.isText ↔ ∃ n, v.string? = some n := by
  simp [isText, Option.isSome_iff_exists]

theorem eq_none_of_isNone {v : Value} (h : v.isNone) : v = none := by
  cases v <;> simp_all [isNone]

theorem string?_eq_none_of_isNone {v : Value} (h : v.isNone) : v.string? = Option.none := by
  cases v <;> simp_all [isNone, string?]

theorem isNone_eq_false_of_isText {v : Value} (h : v.isText) : v.isNone = false := by
  cases v <;> simp_all [isNone, isText, string?]

theorem IsPlace.isText_iff_ne {v : Value} (h : v.IsPlace) : v.isText ↔ v.isNone = false := by
  cases v <;> simp_all [IsPlace, isNone, isText, string?]

theorem IsPlace.isNone_of_string? {v : Value} (h : v.IsPlace) (hv : v.string? = Option.none) :
    v.isNone := by
  rcases h with h | h
  · exact h
  · simp [isText, hv] at h

theorem same_none (v : Value) : same v none = v.isNone := by
  cases v <;> simp [same, sameBy, isNone, hasText, sameWhole, sameFloat]

theorem same_none_left (v : Value) : same none v = v.isNone := by
  simp only [same, sameBy]

theorem alike_none_left (v : Value) : alike none v = v.isNone := by
  cases v <;> simp [alike, itself, same_none_left, isNone]

theorem isNone_eq_false_of_same {v w : Value} (h : same v w) (hw : w.isNone = false) :
    v.isNone = false := by
  cases v with
  | none => rw [same_none_left, hw] at h; cases h
  | _ => rfl

theorem hashable_of_isText {v : Value} (h : v.isText) : v.hashable := by
  cases v <;> simp_all [isText, string?, hashable]

theorem IsPlace.hashable {v : Value} (hv : v.IsPlace) : v.hashable := by
  rcases hv with hv | hv
  · cases v <;> first | rfl | cases hv
  · exact hashable_of_isText hv

/-- Whatever records are equal, only a text is the same as a text, and only if it has the same
string. -/
theorem sameBy_eq_of_isText (peers : Nat → Nat → Bool) (a : Value) {b : Value} (hb : b.isText) :
    sameBy peers a b = (a.string? == b.string?) := by
  cases b <;> simp only [isText, string?, Option.isSome_none, Bool.false_eq_true] at hb <;>
    cases a <;> simp [sameBy, string?, sameWhole, sameFloat, hasText, isNone, BEq.comm]

theorem same_eq_of_isText (a : Value) {b : Value} (hb : b.isText) :
    same a b = (a.string? == b.string?) :=
  sameBy_eq_of_isText _ a hb

theorem alike_eq_of_isText (a : Value) {b : Value} (hb : b.isText) :
    alike a b = (a.string? == b.string?) := by
  have hi : itself a b = false := by
    cases b <;> simp only [isText, string?, Option.isSome_none, Bool.false_eq_true] at hb <;>
      cases a <;> rfl
  rw [alike, hi, Bool.false_or, same_eq_of_isText a hb]

theorem alike_eq_of_isText_left {a : Value} (ha : a.isText) (b : Value) :
    alike a b = (a.string? == b.string?) := by
  cases a <;> simp only [isText, string?, Option.isSome_none, Bool.false_eq_true] at ha <;>
    cases b <;> simp [alike, itself, same, sameBy, string?, hasText, BEq.comm]

theorem same_eq_of_isText_left {a : Value} (ha : a.isText) (b : Value) :
    same a b = (a.string? == b.string?) := by
  rw [← alike_eq_of_isText_left ha b]
  cases a <;> simp only [isText, string?, Option.isSome_none, Bool.false_eq_true] at ha <;>
    simp [alike, itself]

theorem alike_eq_of_isPlace {a b : Value} (ha : a.IsPlace) (hb : b.IsPlace) :
    alike a b = (a.string? == b.string?) := by
  rcases hb with hb | hb
  · cases b <;> simp only [isNone, Bool.false_eq_true] at hb
    rcases ha with ha | ha
    · cases a <;> simp_all [isNone, string?]
    · cases a <;> simp_all [isText, string?, alike, itself, same, sameBy, hasText]
  · exact alike_eq_of_isText a hb

theorem same_eq_of_isPlace {a b : Value} (ha : a.IsPlace) (hb : b.IsPlace) :
    same a b = (a.string? == b.string?) := by
  rw [← alike_eq_of_isPlace ha hb]
  rcases ha with ha | ha <;> cases a <;> simp_all [isNone, isText, string?, alike, itself]

end Value

namespace Table

variable {α : Type} (t : Table α)

theorem keys_insert (key : Value) (a : α) :
    (insert t key a).keys = if contains t key then t.keys else t.keys ++ [key] := by
  induction t with
  | nil => rfl
  | cons e t ih =>
    rw [insert]
    by_cases he : Value.alike e.1 key
    · simp [he, keys, contains]
    · rw [if_neg he]
      show e.1 :: keys (insert t key a) = _
      rw [ih]
      by_cases hc : contains t key
      · have hany : contains (e :: t) key := by simpa [contains, he] using hc
        rw [if_pos hc, if_pos hany]
        rfl
      · have hany : ¬ contains (e :: t) key := by simpa [contains, he] using hc
        rw [if_neg hc, if_neg hany]
        rfl

theorem find?_cons (e : Value × α) (k : Value) :
    find? (e :: t) k = if Value.alike e.1 k then some e.2 else find? t k := by
  by_cases h : Value.alike e.1 k <;> simp [find?, h]

theorem find?_congr {k k' : Value} (hk : k.isText) (h : k.string? = k'.string?) :
    find? t k = find? t k' := by
  have hk' : k'.isText := by rwa [Value.isText, ← h]
  have he : (fun e : Value × α ↦ Value.alike e.1 k) = fun e ↦ Value.alike e.1 k' := by
    funext e
    rw [Value.alike_eq_of_isText _ hk, Value.alike_eq_of_isText _ hk', h]
  simp only [find?, he]

/-- Of names that are all different each has its own entry. -/
theorem find?_of_mem {t : Table α} (hp : t.keys.Pairwise fun x y ↦ x.string? ≠ y.string?)
    {e : Value × α} (he : e ∈ t) (hname : e.1.isText) : find? t e.1 = some e.2 := by
  induction t with
  | nil => cases he
  | cons d t ih =>
    obtain ⟨hd, ht⟩ := List.pairwise_cons.1 hp
    rw [find?_cons, Value.alike_eq_of_isText d.1 hname]
    rcases List.mem_cons.1 he with rfl | he
    · rw [if_pos (beq_self_eq_true _)]
    · rw [if_neg (by simpa using hd e.1 (List.mem_map_of_mem he))]
      exact ih ht he

theorem find?_insert {key : Value} (hkey : key.isText) (k : Value) (a : α) :
    (insert t key a).find? k = if key.string? = k.string? then some a else find? t k := by
  induction t with
  | nil =>
    simp only [insert, find?_cons, Value.alike_eq_of_isText_left hkey, beq_iff_eq]
  | cons e t ih =>
    rw [insert]
    by_cases he : Value.alike e.1 key
    · have hs : e.1.string? = key.string? := by simpa [Value.alike_eq_of_isText _ hkey] using he
      have ht : e.1.isText := by rwa [Value.isText, hs]
      rw [if_pos he]
      simp only [find?_cons, Value.alike_eq_of_isText_left ht, hs, beq_iff_eq]
      split <;> rfl
    · have hs : e.1.string? ≠ key.string? := by simpa [Value.alike_eq_of_isText _ hkey] using he
      simp only [if_neg he, find?_cons, ih]
      by_cases hn : key.string? = k.string?
      · have hk : k.isText := by rwa [Value.isText, ← hn]
        simp [hn, hn ▸ hs, Value.alike_eq_of_isText _ hk]
      · simp [hn]

theorem find?_modify {key k : Value} (hkey : key.isText) (hk : k.isText) (f : α → α) :
    (modify t key f).find? k =
      if key.string? = k.string? then (find? t k).map f else find? t k := by
  induction t with
  | nil => simp [modify, find?]
  | cons e t ih =>
    rw [modify, List.map_cons, ← modify]
    simp only [Value.alike_eq_of_isText _ hkey, beq_iff_eq]
    by_cases he : e.1.string? = key.string?
    · simp only [he, if_true, find?_cons, Value.alike_eq_of_isText _ hk, beq_iff_eq, ih]
      split <;> simp_all
    · simp only [he, if_false, find?_cons, Value.alike_eq_of_isText _ hk, beq_iff_eq, ih]
      by_cases hn : key.string? = k.string?
      · simp [hn, hn ▸ he]
      · simp [hn]

end Table

end Fable
