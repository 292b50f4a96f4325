import Fable.Proofs.Calls
import Fable.Proofs.Telling
import Fable.Script.Operation

namespace Fable

namespace Store

variable {s : Store} {x v w : Value}

/-- The last place on the way outwards from an object. Only from an object that is in nothing it is
none. -/
structure Outermost (s : Store) (x v : Value) : Prop where
  reached : ∃ n, v = s.parent^[n + 1] x
  last : (s.parent v).isNone
  of_placed : (s.parent x).isNone = false → v.isNone = false

theorem isNone_iterate {v : Value} (h : v.isNone) (n : ℕ) : (s.parent^[n] v).isNone := by
  induction n with
  | zero => exact h
  | succ n ih =>
    rw [Function.iterate_succ_apply', s.parent_of_isNone ih]
    rfl

theorem isNone_iterate_of_le {m n : ℕ} (hm : m ≤ n) (h : (s.parent^[m] x).isNone) :
    (s.parent^[n] x).isNone := by
  obtain ⟨k, rfl⟩ := Nat.exists_eq_add_of_le' hm
  rw [Function.iterate_add_apply]
  exact isNone_iterate h k

theorem Outermost.eq_of_lt (hv : s.Outermost x v) (hw : s.Outermost x w) {m n : ℕ}
    (hm : v = s.parent^[m + 1] x) (hn : w = s.parent^[n + 1] x) (h : m < n) : v = w := by
  have hend := hv.last
  rw [hm, ← Function.iterate_succ_apply' s.parent] at hend
  have hwn : w.isNone := hn ▸ isNone_iterate_of_le (Nat.succ_le_succ h) hend
  have hx : (s.parent x).isNone := by
    by_contra hx
    rw [hw.of_placed (Bool.eq_false_iff.2 hx)] at hwn
    cases hwn
  have hvn : v.isNone := hm ▸ isNone_iterate hx m
  rw [Value.eq_none_of_isNone hvn, Value.eq_none_of_isNone hwn]

theorem Outermost.unique (hv : s.Outermost x v) (hw : s.Outermost x w) : v = w := by
  obtain ⟨m, hm⟩ := hv.reached
  obtain ⟨n, hn⟩ := hw.reached
  rcases Nat.lt_trichotomy m n with h | rfl | h
  · exact hv.eq_of_lt hw hm hn h
  · rw [hm, hn]
  · exact (hw.eq_of_lt hv hn hm h).symm

/-- One climbs as far as told, or to where nothing is further out. -/
theorem exists_climb (s : Store) (n : ℕ) (v : Value) :
    (v.isNone = false → (s.climb n v).isNone = false) ∧
      ∃ k ≤ n, s.climb n v = s.parent^[k] v ∧ (k = n ∨ (s.parent (s.climb n v)).isNone) := by
  induction n generalizing v with
  | zero => exact ⟨id, 0, Nat.le_refl 0, rfl, .inl rfl⟩
  | succ n ih =>
    have hup : (if v.isNone then .none else s.parent v) = s.parent v := by
      split
      · next hv => rw [s.parent_of_isNone hv]
      · rfl
    rw [climb, hup]
    split
    · next hend => exact ⟨id, 0, Nat.zero_le _, rfl, .inr hend⟩
    · next hmore =>
      obtain ⟨hsome, k, hk, heq, hlast⟩ := ih (s.parent v)
      refine ⟨fun _ ↦ hsome (Bool.eq_false_iff.2 hmore), k + 1, Nat.succ_le_succ hk, heq, ?_⟩
      exact hlast.imp_left (congrArg Nat.succ)

/-- The place so many steps beyond the container of an object, or the last one before there are no
more. -/
def located (s : Store) (level : ℕ) (x : Value) : Value := s.climb level (s.parent x)

theorem exists_located (s : Store) (n : ℕ) (x : Value) :
    ∃ k ≤ n, s.located n x = s.parent^[k + 1] x ∧
    (k = n ∨ (s.parent (s.located n x)).isNone) :=
  (s.exists_climb n (s.parent x)).2

theorem located_eq_iterate {n : ℕ} (h : (s.parent^[n + 1] x).isNone = false) :
    s.located n x = s.parent^[n + 1] x := by
  obtain ⟨k, hk, heq, rfl | hend⟩ := s.exists_located n x
  · exact heq
  · rw [heq, ← Function.iterate_succ_apply' s.parent] at hend
    rcases Nat.eq_or_lt_of_le hk with rfl | hlt
    · exact heq
    · rw [isNone_iterate_of_le (Nat.succ_le_succ hlt) hend] at h
      cases h

theorem outermost_located {n : ℕ} (h : (s.parent^[n + 2] x).isNone) :
    s.Outermost x (s.located n x) := by
  obtain ⟨k, hk, heq, hend⟩ := s.exists_located n x
  refine ⟨⟨k, heq⟩, ?_, (s.exists_climb n (s.parent x)).1⟩
  rcases hend with rfl | hend
  · rwa [heq, ← Function.iterate_succ_apply' s.parent]
  · exact hend

/-- At a level that is too far out, an object is located in the outermost place. -/
theorem Outermost.located_eq (hv : s.Outermost x v) (n : ℕ) :
    s.located n x = if (s.parent^[n + 1] x).isNone then v else s.parent^[n + 1] x := by
  split
  · next h => exact (outermost_located (isNone_iterate_of_le (Nat.le_succ _) h)).unique hv
  · next h => exact located_eq_iterate (Bool.eq_false_iff.2 h)

theorem Nested.outermost_located (hs : s.Nested) (hx : x.isText) {n : ℕ}
    (hn : s.records.length ≤ n + 1) :
    s.Outermost x (s.located n x) :=
  Store.outermost_located (hs.isNone_iterate (.of_isText hx) (Nat.lt_succ_of_le hn))

/-- The places that hold an object are the ones where it is located at some level. -/
theorem Nested.held_iff_located (hs : s.Nested) (hx : x.isText) (hv : v.isText) :
    s.held x v ↔ ∃ n, Value.same (s.located n x) v := by
  rw [hs.held_iff hx hv]
  constructor
  · rintro ⟨n, hn⟩
    refine ⟨n, ?_⟩
    rwa [located_eq_iterate (Value.isNone_eq_false_of_same hn (Value.isNone_eq_false_of_isText hv))]
  · rintro ⟨n, hn⟩
    obtain ⟨k, -, heq, -⟩ := s.exists_located n x
    exact ⟨k, heq ▸ hn⟩

end Store

namespace Play

open Runs Store

variable {x : Value}

theorem locate_eq (g : Game) (hx : x.hashable) {n : ℕ} (hn : 1 ≤ n) :
    locate x (.int n) g = .ok (g.store.located (n - 1) x) g := by
  have hfew : lift ((Value.int n).lt (.int 1)) g = .ok false g := by
    rw [Value.lt_int, decide_eq_false (by omega)]
    rfl
  have hlevel : ((n : Int) - 1).toNat = n - 1 := by omega
  rw [locate, bind_of_ok hfew, if_neg Bool.false_ne_true]
  change (demand x >>= fun _ ↦ ask fun g ↦ g.store.climb ((n : Int) - 1).toNat (g.store.parent x))
    g = _
  rw [bind_of_ok (demand_of_hashable hx g), hlevel]
  rfl

/-- An object is located in the place so many steps outwards, or in the outermost one if the way is
shorter, and there in any case after as many steps as there are objects; and what holds the object
is where it is located at some level. -/
theorem held_where_located {g : Game} {x : Value} (hr : g.store.Reachable) (hx : x.isText) :
    ∃ top, g.store.Outermost x top ∧
      (∀ n : ℕ, 1 ≤ n → locate x (.int n) g =
        .ok (if (g.store.parent^[n] x).isNone then top else g.store.parent^[n] x) g) ∧
      (∀ n : ℕ, 1 ≤ n → g.store.records.length ≤ n → locate x (.int n) g = .ok top g) ∧
      ∀ y, y.isText → (g.store.held x y ↔
        ∃ n : ℕ, 1 ≤ n ∧ ∃ v, locate x (.int n) g = .ok v g ∧ Value.same v y) := by
  have hhash := Value.hashable_of_isText hx
  have htop := hr.nested.outermost_located hx (Nat.le_succ g.store.records.length)
  refine ⟨_, htop, fun n hn ↦ ?_, fun n hn hall ↦ ?_, fun y hy ↦ ?_⟩
  · rw [locate_eq g hhash hn, htop.located_eq, Nat.sub_add_cancel hn]
  · rw [locate_eq g hhash hn, (hr.nested.outermost_located hx (by omega)).unique htop]
  · rw [hr.nested.held_iff_located hx hy]
    constructor
    · rintro ⟨n, hn⟩
      exact ⟨n + 1, Nat.succ_pos n, _, locate_eq g hhash (Nat.succ_pos n), hn⟩
    · rintro ⟨n, hn, v, hv, hsame⟩
      rw [locate_eq g hhash hn] at hv
      cases hv
      exact ⟨n - 1, hsame⟩

def cave : Game where
  store := .history [
    .define (.text "COIN") { parent := .text "PURSE" },
    .define (.text "CHEST") { parent := .text "CAVE" },
    .define (.text "PURSE") { parent := .text "CHEST" }]

theorem reachable_cave : cave.store.Reachable :=
  reachable_history (by decide +kernel)

theorem coin_located_in_cave :
    cave.store.Reachable ∧ (Value.text "COIN").isText ∧ ∃ top, top.string? = some "CAVE" ∧
      cave.store.records.length ≤ 7 ∧ locate (.text "COIN") (.int 7) cave = .ok top cave ∧
      cave.store.held (.text "COIN") (.text "CAVE") = true := by
  obtain ⟨top, -, hlevels, hfar, hheld⟩ := held_where_located (x := .text "COIN") reachable_cave rfl
  have hall : cave.store.records.length ≤ 3 := by decide +kernel
  have hthird := (hlevels 3 (by decide)).symm.trans (hfar 3 (by decide) hall)
  rw [if_neg (by decide +kernel)] at hthird
  have htop : top.string? = some "CAVE" := by
    cases hthird
    decide +kernel
  have hseventh := hfar 7 (by decide) (by omega)
  refine ⟨reachable_cave, rfl, top, htop, by omega, hseventh,
    (hheld _ rfl).2 ⟨7, by decide, top, hseventh, ?_⟩⟩
  rw [Value.same_eq_of_isText top rfl, htop]
  rfl

end Play

end Fable
