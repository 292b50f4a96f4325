import Fable.Cli.Session
import Fable.Proofs.Installation
import Fable.Proofs.Telling
import Fable.Proofs.Weight
import Mathlib

namespace Fable

/-- Of the names with the same link only one is on any way. -/
theorem Links.Acyclic.eq_of_reaches_both {l : Links} (hl : l.Acyclic)
    {a b y : String} (hab : l a = l b) (ha : l.Reaches y a) (hb : l.Reaches y b) : a = b := by
  cases hc : l a with
  | some c =>
    rcases ha.total hb with h | h
    · exact hl.eq_of_reaches hc (hab ▸ hc) h
    · exact (hl.eq_of_reaches (hab ▸ hc) hc h).symm
  | none =>
    have hend {d e : String} (hd : l d = none) (h : l.Reaches d e) : d = e := by
      obtain ⟨n, hn⟩ := h
      cases n with
      | zero => exact Option.some.inj hn
      | succ n =>
        rw [Function.iterate_succ_apply, step_some, hd, iterate_step_none] at hn
        cases hn
    rcases ha.total hb with h | h
    · exact hend hc h
    · exact (hend (hab ▸ hc) h).symm

namespace Store

variable {s : Store}

/-- The entries of some objects from a depth on: after each object comes what is directly in it, in
order and one level deeper. -/
inductive Listing (s : Store) : ℕ → List Value → List (ℕ × Value) → Prop
  | nil (depth : ℕ) : Listing s depth [] []
  | cons {depth : ℕ} {x : Value} {xs : List Value} {inside rest : List (ℕ × Value)} :
      Listing s (depth + 1) (s.children x) inside → Listing s depth xs rest →
      Listing s depth (x :: xs) ((depth, x) :: (inside ++ rest))

/-- The containers of the object lead to one that is in none. -/
def Rooted (s : Store) (x : String) : Prop :=
  ∃ r, s.links.Reaches x r ∧ s.isDefined (.text r) ∧ (s.parent (.text r)).isNone

def Within (s : Store) (n : ℕ) (x : String) : Prop :=
  ∀ y k, s.links.step^[k] (some y) = some x → k < n

theorem links_of_string? {x : Value} {a : String} (ha : x.string? = some a) :
    s.links a = (s.parent x).string? := by
  rw [links, parent_congr s (find?_of_string? s ha)]

theorem Tidy.exists_mem_children (ht : s.Tidy) (hp : s.Placed) {a : String}
    {c : Value} (hc : c.IsPlace) (hd : s.isDefined (.text a)) (ha : s.links a = c.string?) :
    ∃ x ∈ s.children c, x.string? = some a := by
  have hsame : Value.same (s.parent (.text a)) c := by
    rw [Value.same_eq_of_isPlace (hp a) hc, beq_iff_eq]
    exact ha
  have hmem := (ht.same_parent_iff hp rfl hd hc).1 hsame
  obtain ⟨x, hx, halike⟩ := List.any_eq_true.1 hmem
  rw [Value.alike_eq_of_isText_left rfl, beq_iff_eq] at halike
  exact ⟨x, hx, halike.symm⟩

theorem Nested.within (hs : s.Nested) (x : String) : s.Within (s.records.length + 1) x := by
  intro y k hk
  by_contra hlt
  have hle := length_names_le s
  have hsome : (s.links.step^[k] (some y)).isSome := by rw [hk]; rfl
  have hmid := Links.iterate_isSome hsome (show s.names.length + 1 ≤ k by omega)
  rw [hs.acyclic.iterate_eq_none fun a h ↦ mem_names_of_isDefined s (isDefined_of_links s h)]
    at hmid
  simp at hmid

theorem Within.of_link {n : ℕ} {a b : String} (hb : s.Within (n + 1) b) (hab : s.links a = some b) :
    s.Within n a := by
  intro y k hk
  have hnext : s.links.step^[k + 1] (some y) = some b := by
    rw [Function.iterate_succ_apply', hk]
    exact hab
  have hlt := hb y (k + 1) hnext
  omega

theorem reaches_iff (x : Value) {a y : String} (ha : x.string? = some a)
    (ht : s.Tidy) (hp : s.Placed) :
    s.links.Reaches y a ↔ y = a ∨ ∃ c ∈ s.children x, ∃ b, c.string? = some b ∧
      s.links.Reaches y b := by
  have hx : x.isText := Value.isText_iff.2 ⟨a, ha⟩
  constructor
  · rintro ⟨n, hn⟩
    cases n with
    | zero => exact .inl (Option.some.inj hn)
    | succ n =>
      rw [Function.iterate_succ_apply'] at hn
      cases hb : s.links.step^[n] (some y) with
      | none => simp [hb, Links.step] at hn
      | some b =>
        rw [hb, Links.step_some] at hn
        have hd : s.isDefined (.text b) := isDefined_of_links s (by rw [hn]; rfl)
        obtain ⟨c, hc, hcb⟩ := ht.exists_mem_children hp (.of_isText hx) hd (hn.trans ha.symm)
        exact .inr ⟨c, hc, b, hcb, n, hb⟩
  · rintro (rfl | ⟨c, hc, b, hcb, n, hn⟩)
    · exact ⟨0, rfl⟩
    · refine ⟨n + 1, ?_⟩
      rw [Function.iterate_succ_apply', hn, Links.step_some, links_of_string? hcb,
        (ht.of_mem_children_of_isPlace (.of_isText hx) hc).2.2, ha]

namespace Listing

variable {depth : ℕ} {xs : List Value} {es : List (ℕ × Value)}

theorem mem_iff (h : s.Listing depth xs es) (ht : s.Tidy) (hp : s.Placed) (hxs : ∀ x ∈ xs, x.isText)
    (y : String) :
    some y ∈ es.map (·.2.string?) ↔ ∃ x ∈ xs, ∃ a, x.string? = some a ∧ s.links.Reaches y a := by
  induction h with
  | nil => simp
  | @cons depth x xs inside rest hin hrest ihin ihrest =>
    have hx := hxs x (by simp)
    obtain ⟨a, ha⟩ := Value.isText_iff.1 hx
    have hkids := ihin fun c hc ↦ (ht.of_mem_children_of_isPlace (.of_isText hx) hc).1
    simp only [List.map_cons, List.map_append, List.mem_cons, List.mem_append, hkids,
      ihrest fun z hz ↦ hxs z (by simp [hz]), exists_eq_or_imp, ha,
      Option.some.injEq, exists_eq_left',
      reaches_iff x ha ht hp, or_assoc]

theorem named (h : s.Listing depth xs es) (ht : s.Tidy) (hxs : ∀ x ∈ xs, x.isText ∧ s.isDefined x) :
    ∀ e ∈ es, e.2.isText ∧ s.isDefined e.2 := by
  induction h with
  | nil => simp
  | @cons depth x xs inside rest hin hrest ihin ihrest =>
    have hx := hxs x (by simp)
    have hkids :=
      ihin fun c hc ↦ (ht.of_mem_children_of_isPlace (.of_isText hx.1) hc).imp_right And.left
    have hothers := ihrest fun z hz ↦ hxs z (by simp [hz])
    intro e he
    rcases List.mem_cons.1 he with rfl | he
    · exact hx
    · exact (List.mem_append.1 he).elim (hkids e) (hothers e)

end Listing

def Apart (s : Store) (xs : List Value) : Prop :=
  xs.Pairwise fun x z ↦ ∀ y a b, x.string? = some a → z.string? = some b → s.links.Reaches y a →
    ¬ s.links.Reaches y b

theorem Nested.apart_children (hs : s.Nested) (ht : s.Tidy) {c : Value} (hc : c.IsPlace) :
    s.Apart (s.children c) := by
  refine (ht.children_pairwise c).imp_of_mem fun {x z} hx hz hne y a b ha hb hya hyb ↦ hne ?_
  obtain ⟨hxt, -, hxc⟩ := ht.of_mem_children_of_isPlace hc hx
  obtain ⟨hzt, -, hzc⟩ := ht.of_mem_children_of_isPlace hc hz
  have hla : s.links a = c.string? := by rw [links_of_string? ha, hxc]
  have hlb : s.links b = c.string? := by rw [links_of_string? hb, hzc]
  have heq : a = b := hs.acyclic.eq_of_reaches_both (hla.trans hlb.symm) hya hyb
  rw [Value.same_eq_of_isText _ hzt, ha, hb, heq, beq_self_eq_true]

theorem Listing.nodup {depth : ℕ} {xs : List Value} {es : List (ℕ × Value)}
    (h : s.Listing depth xs es) (hs : s.Nested) (ht : s.Tidy)
    (hxs : ∀ x ∈ xs, x.isText ∧ s.isDefined x) (hapart : s.Apart xs) :
    (es.map (·.2.string?)).Nodup := by
  induction h with
  | nil => simp
  | @cons depth x xs inside rest hin hrest ihin ihrest =>
    have hx := (hxs x (by simp)).1
    obtain ⟨a, ha⟩ := Value.isText_iff.1 hx
    obtain ⟨hfirst, hothers⟩ := List.pairwise_cons.1 hapart
    have hkids : ∀ c ∈ s.children x, c.isText ∧ s.isDefined c :=
      fun c hc ↦ (ht.of_mem_children_of_isPlace (.of_isText hx) hc).imp_right And.left
    have hzs : ∀ z ∈ xs, z.isText ∧ s.isDefined z := fun z hz ↦ hxs z (by simp [hz])
    have hleft := ihin hkids (hs.apart_children ht (.of_isText hx))
    have hright := ihrest hzs hothers
    have hup : ∀ y, some y ∈ inside.map (·.2.string?) →
        s.links.Reaches y a ∧ ∃ b, s.links b = some a ∧ s.links.Reaches y b := by
      intro y hy
      obtain ⟨c, hc, b, hb, hreach⟩ := (hin.mem_iff ht hs.placed (fun c hc ↦ (hkids c hc).1) y).1 hy
      have hlink : s.links b = some a := by
        rw [links_of_string? hb, (ht.of_mem_children_of_isPlace (.of_isText hx) hc).2.2, ha]
      exact ⟨(reaches_iff x ha ht hs.placed).2 (.inr ⟨c, hc, b, hb, hreach⟩), b, hlink, hreach⟩
    have hapart : ∀ y, some y ∈ rest.map (·.2.string?) → ¬ s.links.Reaches y a := by
      intro y hy hreach
      obtain ⟨z, hz, b, hb, hzy⟩ := (hrest.mem_iff ht hs.placed (fun z hz ↦ (hzs z hz).1) y).1 hy
      exact hfirst z hz y a b ha hb hreach hzy
    rw [List.map_cons, List.map_append, ha]
    refine List.nodup_cons.2 ⟨fun hmem ↦ ?_, hleft.append hright fun o hin' hrest' ↦ ?_⟩
    · rcases List.mem_append.1 hmem with hmem | hmem
      · -- An object inside itself would be on the way from one of its children.
        obtain ⟨-, b, hlink, n, hn⟩ := hup a hmem
        refine hs.acyclic a n ?_
        rw [Function.iterate_succ_apply', hn, Links.step_some, hlink]
      · exact hapart a hmem ⟨0, rfl⟩
    · obtain ⟨e, he, rfl⟩ := List.mem_map.1 hin'
      obtain ⟨y, hy⟩ := Value.isText_iff.1 (hin.named ht hkids e he).1
      rw [hy] at hin' hrest'
      exact hapart y hrest' (hup y hin').1

end Store

namespace Cli

end Cli

end Fable
