import Fable.Proofs.Draws
import Fable.Proofs.Runs

namespace Fable.Twister

/-- However many bits are drawn until they are small enough, a whole generator stays whole. -/
theorem size_of_below {bound r : ℕ} {t u : Twister} (ht : t.words.size = size)
    (h : t.below bound = some (r, u)) : u.words.size = size := by
  have hstep := Twister.below.partial_correctness bound
    (fun t s ↦ t.words.size = size → s.2.words.size = size) (fun f hf t s hs ht ↦ ?_) t _ h
  · exact hstep ht
  · obtain ⟨x, n, hx, hfollows⟩ := exists_follows ht
    have hwhole := (hfollows.bits hx (Nat.succ_pos bound.log2)).1.size
    dsimp only at hs
    split at hs
    · cases hs
      exact hwhole
    · exact hf _ _ hs hwhole

end Fable.Twister

namespace Fable.Draw

open Runs

variable {α β : Type} {d : Draw α} {t u : Twister} {n : ℤ}

theorem random_of_pos (hn : 0 < n) :
    random (.int n) = (fun r : ℕ ↦ .int (r + 1)) <$> below n.toNat := by
  rw [random, Value.order_int, compare_gt_iff_gt.2 hn]
  rfl

theorem random_of_neg (hn : 0 < n) :
    random (.int (-n)) = (fun r : ℕ ↦ .int (-(r + 1))) <$> below n.toNat := by
  have hspan : span (negated (.int (-n))) = .ok n.toNat := by simp [negated, Value.int?, span]
  rw [random, Value.order_int, compare_lt_iff_lt.2 (neg_lt_zero.2 hn)]
  simp only [hspan]
  rfl

theorem chance_int (p : ℤ) :
    chance (.int p) = (fun r : ℕ ↦ .bool (decide ((r : ℤ) < p))) <$> below 100 := by
  simp only [chance, Value.lt_int]
  rfl

def Intact (d : Draw α) : Prop :=
  ∀ t, t.words.size = Twister.size → (after d t).words.size = Twister.size

namespace Intact

theorem of_constant {d : Draw α} (hd : ∀ t, after d t = t) : Intact d := fun t ht ↦ by rwa [hd]

theorem pure (a : α) : Intact (Pure.pure a) := of_constant fun _ ↦ rfl

theorem throw (f : Fault) : Intact (MonadExcept.throw f : Draw α) := of_constant fun _ ↦ rfl

theorem lift (e : Except Fault α) : Intact (Draw.lift e) := by
  cases e with
  | ok a => exact pure a
  | error f => exact throw f

theorem bind {f : α → Draw β} (hd : Intact d) (hf : ∀ a, Intact (f a)) : Intact (d >>= f) := by
  intro t ht
  have hafter := hd t ht
  cases h : d t with
  | ok a u =>
    rw [after_of_ok h] at hafter
    rw [after, bind_of_ok h]
    exact hf a u hafter
  | error e u =>
    rw [after_of_error h] at hafter
    rwa [after_of_error (bind_of_error h f)]

theorem below (bound : ℕ) : Intact (Draw.below bound) := by
  intro t ht
  rw [after, Draw.below]
  cases h : t.below bound with
  | none => exact ht
  | some r => exact Twister.size_of_below ht h

theorem random (n : Value) : Intact (Draw.random n) := by
  refine .bind (.lift _) fun o ↦ ?_
  split
  · exact .bind (.lift _) fun k ↦ .bind (.below k) fun _ ↦ .pure _
  · exact .bind (.lift _) fun k ↦ .bind (.below k) fun _ ↦ .pure _
  · exact .pure _

theorem pickOne (v : Value) : Intact (Draw.pickOne v) := by
  unfold Draw.pickOne
  split
  · exact .pure _
  · split
    · refine .bind (.below _) fun i ↦ ?_
      split
      · exact .pure _
      · exact .throw _
    · exact .bind (.below _) fun _ ↦ .throw _
    · exact .bind (.lift _) fun members ↦ .bind (.below members.length) fun _ ↦ .pure _

theorem chance (percent : Value) : Intact (Draw.chance percent) :=
  .bind (.below 100) fun _ ↦ .bind (.lift _) fun _ ↦ .pure _

theorem reseed (seed : Value) : Intact (Draw.reseed seed) := by
  intro t ht
  cases h : Twister.ofValue seed with
  | error f =>
    simp only [Draw.reseed, h]
    exact ht
  | ok u =>
    simp only [Draw.reseed, h]
    exact Twister.size_of_ofValue h

end Intact

theorem of_random_ok {v : Value} (hn : 0 < n) (h : random (.int n) t = .ok v u) :
    ∃ k : ℤ, v = .int k ∧ 1 ≤ k ∧ k ≤ n := by
  rw [random_of_pos hn, map_below_eq_ok_iff] at h
  obtain ⟨r, hr, rfl⟩ := h
  have hlt := Twister.lt_of_below hr
  exact ⟨r + 1, rfl, by omega, by omega⟩

theorem exists_random (ht : t.words.size = Twister.size) (hn : 0 < n) (hbound : n < 2 ^ 64) :
    ∃ v u, random (.int n) t = .ok v u := by
  obtain ⟨r, u, hr, -, -⟩ := Twister.exists_below (show 0 < n.toNat by omega) (by omega) ht
  rw [random_of_pos hn]
  exact ⟨_, u, map_below_eq_ok_iff.2 ⟨r, hr, rfl⟩⟩

/-- The same number is drawn for both signs. -/
theorem random_neg_eq_ok_iff {v : Value} (hn : 0 < n) : random (.int (-n)) t = .ok v u ↔
    ∃ k : ℤ, v = .int (-k) ∧ random (.int n) t = .ok (.int k) u := by
  rw [random_of_neg hn, random_of_pos hn, map_below_eq_ok_iff]
  simp only [map_below_eq_ok_iff, Value.int.injEq]
  constructor
  · rintro ⟨r, hr, rfl⟩
    exact ⟨r + 1, rfl, r, hr, rfl⟩
  · rintro ⟨k, rfl, r, hr, rfl⟩
    exact ⟨r, hr, rfl⟩

/-- What is drawn for a chance does not depend on the percent, with which it is only compared. -/
theorem exists_chance (ht : t.words.size = Twister.size) : ∃ (u : Twister) (r : ℕ), r < 100 ∧
    ∀ p : ℤ, chance (.int p) t = .ok (.bool (decide ((r : ℤ) < p))) u := by
  obtain ⟨r, u, hr, hlt, -⟩ := Twister.exists_below (show 0 < 100 by decide) (by decide) ht
  refine ⟨u, r, hlt, fun p ↦ ?_⟩
  rw [chance_int]
  exact map_below_eq_ok_iff.2 ⟨r, hr, rfl⟩

inductive Call
  | random (n : Value)
  | pickOne (v : Value)
  | chance (percent : Value)
  | reseed (seed : Value)

def Call.run : Call → Draw Value
  | random n => Draw.random n
  | pickOne v => Draw.pickOne v
  | chance percent => Draw.chance percent
  | reseed seed => Draw.reseed seed

def afterCalls (calls : List Call) (t : Twister) : Twister :=
  calls.foldl (fun t c ↦ after c.run t) t

theorem Call.intact (c : Call) : Intact c.run := by
  cases c with
  | random n => exact .random n
  | pickOne v => exact .pickOne v
  | chance percent => exact .chance percent
  | reseed seed => exact .reseed seed

theorem size_afterCalls (ht : t.words.size = Twister.size) (calls : List Call) :
    (afterCalls calls t).words.size = Twister.size := by
  induction calls generalizing t with
  | nil => exact ht
  | cons c calls ih => exact ih (c.intact t ht)

/-- What random choices keep to from a state of the generator on. -/
structure Lawful (t : Twister) : Prop where
  /-- A number that is drawn lies in its range; below 64 bits one is always drawn. -/
  within : ∀ n : ℤ, 0 < n →
    (∀ v u, random (.int n) t = .ok v u → ∃ k : ℤ, v = .int k ∧ 1 ≤ k ∧ k ≤ n) ∧
      (n < 2 ^ 64 → ∃ v u, random (.int n) t = .ok v u)
  /-- For a negative number its negation is drawn, and the generator goes on in the same way. -/
  mirrored : ∀ n : ℤ, 0 < n → ∀ v u, random (.int (-n)) t = .ok v u ↔
    ∃ k : ℤ, v = .int (-k) ∧ random (.int n) t = .ok (.int k) u
  /-- What is picked is a member; below 64 bits of them one is always picked. -/
  picked : ∀ v xs, v.sequence? = some xs → xs ≠ [] →
    (∀ w u, pickOne v t = .ok w u → w ∈ xs) ∧ (xs.length < 2 ^ 64 → ∃ w u, pickOne v t = .ok w u)
  /-- Whatever the percent, the generator goes on in the same way. -/
  chances : ∃ (u : Twister) (b : ℤ → Bool), (∀ p, chance (.int p) t = .ok (.bool (b p)) u) ∧
    (∀ p q, p ≤ q → b p = true → b q = true) ∧ (∀ p ≤ 0, b p = false) ∧ ∀ p, 100 ≤ p → b p = true

/-- Whatever was drawn, picked, tried and seeded before, from any state of the generator on, random
choices keep to their laws. -/
theorem choices_lawful_throughout {t : Twister}
    (ht : t.words.size = Twister.size) (calls : List Call) :
    Lawful (afterCalls calls t) := by
  have hwhole := size_afterCalls ht calls
  refine ⟨fun n hn ↦ ⟨fun v u h ↦ of_random_ok hn h, exists_random hwhole hn⟩,
    fun n hn v u ↦ random_neg_eq_ok_iff hn, fun v xs hv hxs ↦
      ⟨fun w u h ↦ mem_of_pickOne hv hxs h, ?_⟩, ?_⟩
  · intro hlength
    obtain ⟨w, u, hpick, -, -⟩ := exists_pickOne hv hxs hlength hwhole
    exact ⟨w, u, hpick⟩
  · obtain ⟨u, r, hr, hchance⟩ := exists_chance hwhole
    refine ⟨u, fun p ↦ decide ((r : ℤ) < p), hchance, fun p q hpq hb ↦ ?_,
      fun p hp ↦ ?_, fun p hp ↦ ?_⟩
    · exact decide_eq_true ((of_decide_eq_true hb).trans_le hpq)
    · exact decide_eq_false (by omega)
    · exact decide_eq_true (by omega)

/-- After a huge seed, a range of more than 32 bits, a choice among nothing and calls that fail, a
number of 40 bits is drawn, and its negation for the negative range. -/
theorem huge_range_after_huge_seed :
    let t := Twister.ofSeed (2 ^ 100)
    let calls : List Call :=
      [.random (.int (-2 ^ 70)), .pickOne (.text ""), .chance .none, .reseed (.int (-2 ^ 90)),
      .reseed (.list [])]
    t.words.size = Twister.size ∧ ∃ (k : ℤ) (u : Twister), 1 ≤ k ∧ k ≤ 2 ^ 40 ∧
      random (.int (2 ^ 40)) (afterCalls calls t) = .ok (.int k) u ∧
      random (.int (-2 ^ 40)) (afterCalls calls t) = .ok (.int (-k)) u := by
  intro t calls
  have ht : t.words.size = Twister.size := Twister.size_ofKeys _
  have hlawful := choices_lawful_throughout ht calls
  have hpos : (0 : ℤ) < 2 ^ 40 := by decide
  obtain ⟨hwithin, hreturns⟩ := hlawful.within _ hpos
  obtain ⟨v, u, hv⟩ := hreturns (by decide)
  obtain ⟨k, rfl, hlow, hhigh⟩ := hwithin v u hv
  exact ⟨ht, k, u, hlow, hhigh, hv, (hlawful.mirrored _ hpos _ u).2 ⟨k, rfl, hv⟩⟩

end Fable.Draw
