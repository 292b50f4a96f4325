import Fable.Value.Basic

namespace Fable.Value

variable (peers : Nat → Nat → Bool)

theorem sameEntries_of_subset {es ys : List (Value × Value)} (h : ∀ e ∈ es, e ∈ ys)
    (hl : ∀ e ∈ es, (itself e.1 e.1 || sameBy peers e.1 e.1) ∧
      (itself e.2 e.2 || sameBy peers e.2 e.2)) :
    sameEntries peers es ys := by
  induction es with
  | nil => simp [sameEntries]
  | cons e es ih =>
    obtain ⟨k, v⟩ := e
    have hh := hl (k, v) (by simp)
    have ht := ih (fun e he ↦ h e (by simp [he])) (fun e he ↦ hl e (by simp [he]))
    simp only [sameEntries, ht, Bool.and_true, List.any_eq_true]
    exact ⟨(k, v), h _ (by simp), by simpa using hh⟩

theorem within_of_subset {xs ys : List Value} (h : ∀ x ∈ xs, x ∈ ys)
    (hl : ∀ x ∈ xs, itself x x || sameBy peers x x) : within peers xs ys := by
  induction xs with
  | nil => simp [within]
  | cons x xs ih =>
    have ht := ih (fun y hy ↦ h y (by simp [hy])) (fun y hy ↦ hl y (by simp [hy]))
    simp only [within, ht, Bool.and_true, List.any_eq_true]
    exact ⟨x, h _ (by simp), hl x (by simp)⟩

theorem sameItems_self_of {xs : List Value} (hl : ∀ x ∈ xs, itself x x || sameBy peers x x) :
    sameItems peers xs xs := by
  induction xs with
  | nil => simp [sameItems]
  | cons x xs ih =>
    simp only [sameItems, hl x (by simp), ih fun y hy ↦ hl y (by simp [hy]), Bool.and_self]

mutual

/-- Everything is like itself. -/
theorem like_self (x : Value) : (itself x x || sameBy peers x x) = true := by
  match x with
  | none => simp [sameBy, isNone]
  | bool b => simp [sameBy, sameWhole]
  | int n => simp [sameBy, sameWhole]
  | float x => simp [itself]
  | nan n => simp [itself]
  | text s => simp [sameBy, hasText]
  | list xs n => simp [sameBy, sameItems_self_of peers (like_self_of_mem xs)]
  | dict es n =>
    simp [sameBy, sameEntries_of_subset peers (fun _ h ↦ h) (like_self_of_mem_entries es)]
  | set xs => simp [sameBy, within_of_subset peers (fun _ h ↦ h) (like_self_of_mem xs)]
  | fatal => simp [sameBy]
  | directive d => simp [sameBy]
  | message m => simp [sameBy, hasText]
  | routine r => simp [sameBy]
  | object n => simp [sameBy]
  | command v d i n => simp [sameBy, like_self v, like_self d, like_self i]
  | outcome r s m ds n => simp [sameBy, like_self s, like_self m]

theorem like_self_of_mem (xs : List Value) : ∀ x ∈ xs, itself x x || sameBy peers x x := by
  match xs with
  | [] => simp
  | x :: xs => simpa using ⟨by simpa using like_self x, by simpa using like_self_of_mem xs⟩

theorem like_self_of_mem_entries (es : List (Value × Value)) :
    ∀ e ∈ es, (itself e.1 e.1 || sameBy peers e.1 e.1) ∧
      (itself e.2 e.2 || sameBy peers e.2 e.2) := by
  match es with
  | [] => simp
  | (k, v) :: es =>
    have hs := like_self_of_mem_entries es
    intro e he
    rcases List.mem_cons.1 he with rfl | he
    · exact ⟨like_self k, like_self v⟩
    · exact hs e he

end

abbrev Judged (x y : Value) : Type := { b : Bool // b = sameBy peers x y }

/-- Whether two values are alike. If they are one and the same, neither is gone through. -/
def shared (x y : Value) (judged : Unit → Judged peers x y) : Bool :=
  withPtrEq x y (fun _ ↦ itself x y || (judged ()).1) fun h ↦ by
    rw [(judged ()).2, h]
    exact like_self peers y

@[simp] theorem shared_eq (x y : Value) (judged : Unit → Judged peers x y) :
    shared peers x y judged = (itself x y || sameBy peers x y) := by
  simp only [shared, withPtrEq, (judged ()).2]

mutual

def judge (x y : Value) : Judged peers x y :=
  match x, y with
  | list xs _, list ys _ => ⟨(judgeItems xs ys).1, by simp [sameBy, (judgeItems xs ys).2]⟩
  | dict xs _, dict ys _ =>
    ⟨xs.length == ys.length && (judgeEntries xs ys).1, by simp [sameBy, (judgeEntries xs ys).2]⟩
  | command v d i _, command v' d' i' _ =>
    ⟨shared peers v v' (fun _ ↦ judge v v') && shared peers d d' (fun _ ↦ judge d d') &&
      shared peers i i' (fun _ ↦ judge i i'), by simp [sameBy]⟩
  | outcome r s m ds _, outcome r' s' m' ds' _ =>
    ⟨r == r' && shared peers s s' (fun _ ↦ judge s s') && shared peers m m' (fun _ ↦ judge m m') &&
      ds == ds', by simp [sameBy]⟩
  | x, y => ⟨sameBy peers x y, rfl⟩

def judgeItems (xs ys : List Value) : { b : Bool // b = sameItems peers xs ys } :=
  match xs, ys with
  | x :: xs, y :: ys =>
    ⟨shared peers x y (fun _ ↦ judge x y) && (judgeItems xs ys).1,
      by simp [sameItems, (judgeItems xs ys).2]⟩
  | xs, ys => ⟨sameItems peers xs ys, rfl⟩

def judgeEntries (es ys : List (Value × Value)) : { b : Bool // b = sameEntries peers es ys } :=
  match es with
  | [] => ⟨true, by simp [sameEntries]⟩
  | (k, v) :: es =>
    ⟨(ys.any fun e ↦ shared peers k e.1 (fun _ ↦ judge k e.1) &&
      shared peers v e.2 fun _ ↦ judge v e.2) &&
      (judgeEntries es ys).1, by simp [sameEntries, (judgeEntries es ys).2]⟩

end

def equalBy (x y : Value) : Bool :=
  (judge peers x y).1

def equalItems (xs ys : List Value) : Bool :=
  (judgeItems peers xs ys).1

def likeBy (x y : Value) : Bool :=
  shared peers x y fun _ ↦ judge peers x y

@[simp] theorem equalBy_eq (x y : Value) : equalBy peers x y = sameBy peers x y :=
  (judge peers x y).2

@[simp] theorem equalItems_eq (xs ys : List Value) :
    equalItems peers xs ys = sameItems peers xs ys :=
  (judgeItems peers xs ys).2

@[simp] theorem likeBy_eq (x y : Value) : likeBy peers x y = (itself x y || sameBy peers x y) :=
  shared_eq ..

end Fable.Value
