import Fable.Random.Draw
import Mathlib.Data.FinEnum
import Mathlib.Data.Fintype.EquivFin
import Mathlib.Data.Fintype.Pi
import Mathlib.Tactic.IntervalCases

namespace Fable.Twister

/-- The word that three earlier ones give rise to. -/
def twist (a b c : UInt32) : UInt32 :=
  let y := (a &&& 0x80000000) ||| (b &&& 0x7fffffff)
  c ^^^ (y >>> 1) ^^^ (if y &&& 1 = 0 then 0 else 0x9908b0df)

/-- The highest bit of what is handed out for a word. -/
def highest (w : UInt32) : UInt32 := temper w >>> 31

theorem xor_and (a b m : UInt32) : (a ^^^ b) &&& m = (a &&& m) ^^^ (b &&& m) := by
  rw [← UInt32.toBitVec_inj]
  simp only [UInt32.toBitVec_and, UInt32.toBitVec_xor]
  ext i
  simp only [BitVec.getElem_and, BitVec.getElem_xor]
  grind

theorem xor_xor_xor_comm (a b c d : UInt32) :
    (a ^^^ b) ^^^ (c ^^^ d) = (a ^^^ c) ^^^ (b ^^^ d) := by
  rw [UInt32.xor_assoc, UInt32.xor_assoc, ← UInt32.xor_assoc b,
    UInt32.xor_comm b, UInt32.xor_assoc c]

/-- The highest bit of one word and the others of another. -/
theorem or_eq_xor (a b : UInt32) :
    (a &&& 0x80000000) ||| (b &&& 0x7fffffff) = (a &&& 0x80000000) ^^^ (b &&& 0x7fffffff) := by
  rw [← UInt32.toBitVec_inj]
  simp only [UInt32.toBitVec_and, UInt32.toBitVec_xor, UInt32.toBitVec_or]
  ext i hi
  interval_cases i <;> simp

theorem and_one (y : UInt32) : y &&& 1 = 0 ∨ y &&& 1 = 1 := by
  have hnat : (y &&& 1).toNat = y.toNat % 2 := by rw [UInt32.toNat_and]; exact Nat.and_one_is_mod _
  rcases Nat.mod_two_eq_zero_or_one y.toNat with h | h
  · exact .inl (UInt32.toNat_inj.1 (hnat.trans h))
  · exact .inr (UInt32.toNat_inj.1 (hnat.trans h))

theorem feedback_xor (y z : UInt32) :
    (if (y ^^^ z) &&& 1 = 0 then 0 else 0x9908b0df) =
      (if y &&& 1 = 0 then 0 else 0x9908b0df) ^^^
      (if z &&& 1 = 0 then (0 : UInt32) else 0x9908b0df) := by
  rw [xor_and]
  rcases and_one y with hy | hy <;> rcases and_one z with hz | hz <;> rw [hy, hz] <;> decide

theorem twist_xor (a b c a' b' c' : UInt32) :
    twist (a ^^^ a') (b ^^^ b') (c ^^^ c') = twist a b c ^^^ twist a' b' c' := by
  have hjoin : ((a ^^^ a') &&& 0x80000000) ||| ((b ^^^ b') &&& 0x7fffffff) =
      ((a &&& 0x80000000) ||| (b &&& 0x7fffffff)) ^^^
        ((a' &&& 0x80000000) ||| (b' &&& 0x7fffffff)) := by
    rw [or_eq_xor, or_eq_xor, or_eq_xor, xor_and, xor_and, xor_xor_xor_comm]
  simp only [twist]
  rw [hjoin, UInt32.shiftRight_xor, feedback_xor, xor_xor_xor_comm c, xor_xor_xor_comm (c ^^^ _)]

theorem xor_add_on {f : UInt32 → UInt32} (hf : ∀ a b, f (a ^^^ b) = f a ^^^ f b) (a b : UInt32) :
    (a ^^^ b) ^^^ f (a ^^^ b) = (a ^^^ f a) ^^^ (b ^^^ f b) := by
  rw [hf, xor_xor_xor_comm]

theorem temper_xor (a b : UInt32) : temper (a ^^^ b) = temper a ^^^ temper b := by
  have hright (n a b : UInt32) : (a ^^^ b) ^^^ ((a ^^^ b) >>> n) =
      (a ^^^ (a >>> n)) ^^^ (b ^^^ (b >>> n)) :=
    xor_add_on (f := (· >>> n)) (fun _ _ ↦ UInt32.shiftRight_xor) a b
  have hleft (n m a b : UInt32) : (a ^^^ b) ^^^ (((a ^^^ b) <<< n) &&& m) =
      (a ^^^ ((a <<< n) &&& m)) ^^^ (b ^^^ ((b <<< n) &&& m)) := by
    refine xor_add_on (f := fun w ↦ (w <<< n) &&& m) (fun a b ↦ ?_) a b
    rw [UInt32.shiftLeft_xor, xor_and]
  simp only [temper, hright, hleft]

theorem highest_xor (a b : UInt32) : highest (a ^^^ b) = highest a ^^^ highest b := by
  rw [highest, temper_xor, UInt32.shiftRight_xor]
  rfl

theorem highest_eq (w : UInt32) : highest w = 0 ∨ highest w = 1 := by
  have hlt : (highest w).toNat < 2 := by
    rw [highest, UInt32.toNat_shiftRight, Nat.shiftRight_eq_div_pow]
    have hw := (temper w).toNat_lt
    exact Nat.div_lt_of_lt_mul hw
  have hcases : (highest w).toNat = 0 ∨ (highest w).toNat = 1 := by omega
  exact hcases.imp (fun h ↦ UInt32.toNat_inj.1 h) fun h ↦ UInt32.toNat_inj.1 h

/-- Only zero gives rise to itself. -/
theorem eq_zero_of_twist_self {w : UInt32} (h : twist w w w = w) : w = 0 := by
  have hjoin : (w &&& 0x80000000) ||| (w &&& 0x7fffffff) = w := by
    rw [← UInt32.toBitVec_inj]
    simp only [UInt32.toBitVec_and, UInt32.toBitVec_or]
    ext i hi
    interval_cases i <;> simp
  simp only [twist, hjoin, UInt32.xor_assoc] at h
  have hzero : (w >>> 1) ^^^ (if w &&& 1 = 0 then 0 else 0x9908b0df) = 0 := by
    have hw := congrArg (w ^^^ ·) h
    simpa [← UInt32.xor_assoc] using hw
  have hshift : (w >>> 1).toNat = w.toNat / 2 := by
    rw [UInt32.toNat_shiftRight, Nat.shiftRight_eq_div_pow]
    rfl
  have hbit : (w &&& 1).toNat = w.toNat % 2 := by
    rw [UInt32.toNat_and]
    exact Nat.and_one_is_mod _
  split at hzero
  · next heven =>
    rw [UInt32.xor_zero] at hzero
    rw [hzero] at hshift
    rw [heven] at hbit
    refine UInt32.toNat_inj.1 ?_
    simp only [UInt32.toNat_zero] at hshift hbit ⊢
    omega
  · -- The feedback has a highest bit, and what was shifted has none.
    rw [UInt32.xor_eq_zero_iff] at hzero
    have hw := w.toNat_lt
    rw [hzero] at hshift
    have hmask : (0x9908b0df : UInt32).toNat = 0x9908b0df := rfl
    omega

/-- Every word is given rise to by three earlier ones. -/
def Recurs (x : ℕ → UInt32) : Prop := ∀ n, x (n + size) = twist (x n) (x (n + 1)) (x (n + 397))

def differences (x : ℕ → UInt32) (n : ℕ) : UInt32 := x n ^^^ x (n + 2)

variable {x y : ℕ → UInt32}

theorem Recurs.xor (hx : Recurs x) (hy : Recurs y) : Recurs fun n ↦ x n ^^^ y n := by
  intro n
  rw [twist_xor, ← hx n, ← hy n]

theorem Recurs.shift (hx : Recurs x) (k : ℕ) : Recurs fun n ↦ x (n + k) := by
  intro n
  have hn := hx (n + k)
  rwa [Nat.add_right_comm n k, Nat.add_right_comm n k, Nat.add_right_comm n k] at hn

theorem Recurs.differences (hx : Recurs x) : Recurs (differences x) := hx.xor (hx.shift 2)

theorem Recurs.ext (hx : Recurs x) (hy : Recurs y) (h : ∀ n < size, x n = y n) : x = y := by
  funext n
  induction n using Nat.strong_induction_on with
  | h n ih =>
    by_cases hn : n < size
    · exact h n hn
    · obtain ⟨m, rfl⟩ := Nat.exists_eq_add_of_le' (Nat.le_of_not_lt hn)
      have hsize : size = 624 := rfl
      rw [hx m, hy m, ih m (by omega), ih (m + 1) (by omega), ih (m + 397) (by omega)]

instance : Finite { x : ℕ → UInt32 // Recurs x } := by
  refine Finite.of_injective (fun x (i : Fin size) ↦ x.1 i) fun x y hxy ↦ Subtype.ext ?_
  exact x.2.ext y.2 fun n hn ↦ congrFun hxy ⟨n, hn⟩

/-- Only zeros come again after two words. -/
theorem Recurs.eq_zero_of_periodic (hx : Recurs x) (h : ∀ n, x (n + 2) = x n) (n : ℕ) :
    x n = 0 := by
  have hparity (n : ℕ) : x n = x (n % 2) := by
    induction n using Nat.twoStepInduction with
    | zero => rfl
    | one => rfl
    | more n ih _ => rw [h, ih, Nat.add_mod_right]
  have heven : x 0 = twist (x 0) (x 1) (x 1) := by
    have hrec := hx 0
    rwa [hparity (0 + size), hparity (0 + 397)] at hrec
  have hodd : x 1 = twist (x 1) (x 0) (x 0) := by
    have hrec := hx 1
    rwa [hparity (1 + size), hparity (1 + 1), hparity (1 + 397)] at hrec
  have hsame : x 0 = x 1 := by
    refine UInt32.xor_eq_zero_iff.1 (eq_zero_of_twist_self ?_)
    have hsum := twist_xor (x 0) (x 1) (x 1) (x 1) (x 0) (x 0)
    rwa [← heven, ← hodd, UInt32.xor_comm (x 1) (x 0)] at hsum
  have hzero : x 0 = 0 := by
    rw [← hsame] at heven
    exact eq_zero_of_twist_self heven.symm
  rw [hparity]
  rcases Nat.mod_two_eq_zero_or_one n with hn | hn
  · rw [hn, hzero]
  · rw [hn, ← hsame, hzero]

theorem Recurs.eq_of_differences (hx : Recurs x) (hy : Recurs y)
    (h : Twister.differences x = Twister.differences y) :
    x = y := by
  have hperiod (n : ℕ) : x (n + 2) ^^^ y (n + 2) = x n ^^^ y n := by
    have hn : x n ^^^ x (n + 2) = y n ^^^ y (n + 2) := congrFun h n
    refine UInt32.xor_eq_zero_iff.1 ?_
    rw [UInt32.xor_comm, xor_xor_xor_comm, hn, UInt32.xor_self]
  funext n
  exact UInt32.xor_eq_zero_iff.1 ((hx.xor hy).eq_zero_of_periodic hperiod n)

abbrev Steady : Type :=
  { x : { x : ℕ → UInt32 // Recurs x } // ∀ n, highest (x.1 (2 * n)) = highest (x.1 0) }

theorem highest_differences (x : Steady) (n : ℕ) : highest (differences x.1.1 (2 * n)) = 0 := by
  rw [differences, ← Nat.mul_succ, highest_xor, x.2 n, x.2 (n + 1), UInt32.xor_self]

theorem highest_of_steady (x : Steady) (n : ℕ) : highest (x.1.1 (2 * n)) = 0 := by
  let d : Steady → Steady := fun x ↦ ⟨⟨differences x.1.1, x.1.2.differences⟩, fun n ↦ by
    rw [highest_differences]
    exact (highest_differences x 0).symm⟩
  have hinjective : Function.Injective d := by
    intro y z hyz
    have hsame : differences y.1.1 = differences z.1.1 := congrArg (·.1.1) hyz
    exact Subtype.ext (Subtype.ext (y.1.2.eq_of_differences z.1.2 hsame))
  -- On finitely many streams an injective map is surjective.
  obtain ⟨y, rfl⟩ := Finite.surjective_of_injective hinjective x
  exact highest_differences y n

/-- The recurrence respects exclusive or, and so does the highest bit. Taking differences is
injective on the finitely many steady streams, so that each of these is a stream of differences, in
which the bit is zero at even places. -/
theorem Recurs.exists_highest (hx : Recurs x) : ∃ n, highest (x (2 * n)) = 0 := by
  by_contra hnone
  have hone (n : ℕ) : highest (x (2 * n)) = 1 := (highest_eq _).resolve_left fun h ↦ hnone ⟨n, h⟩
  have hsteady : ∀ n, highest (x (2 * n)) = highest (x 0) := fun n ↦ (hone n).trans (hone 0).symm
  exact hnone ⟨0, highest_of_steady ⟨⟨x, hx⟩, hsteady⟩ 0⟩

def stream (a : Array UInt32) (n : ℕ) : UInt32 :=
  if n < size then word a n
  else twist (stream a (n - size)) (stream a (n - size + 1)) (stream a (n - size + 397))
termination_by n
decreasing_by all_goals simp only [size] at *; omega

theorem recurs_stream (a : Array UInt32) : Recurs (stream a) := by
  intro n
  rw [stream, if_neg (by omega), Nat.add_sub_cancel]

/-- The words are those of the stream from some place on, and the next one is its `n`-th. -/
structure Follows (t : Twister) (x : ℕ → UInt32) (n : ℕ) : Prop where
  size : t.words.size = Twister.size
  words : ∃ base, (∀ j < Twister.size, word t.words j = x (base + j)) ∧
    n = base + min t.used Twister.size

variable {t : Twister} {n : ℕ}

theorem exists_follows (ht : t.words.size = size) : ∃ x n, Recurs x ∧ Follows t x n := by
  refine ⟨stream t.words, min t.used size, recurs_stream _, ht, 0,
    fun j hj ↦ ?_, (Nat.zero_add _).symm⟩
  rw [Nat.zero_add, stream, if_pos hj]

theorem word_setIfInBounds (a : Array UInt32) {i : ℕ} (hi : i < a.size) (w : UInt32) (j : ℕ) :
    word (a.setIfInBounds i w) j = if i = j then w else word a j := by
  rw [word, Array.getD_eq_getD_getElem?, Array.getElem?_setIfInBounds, if_pos hi]
  split
  · rfl
  · rw [word, Array.getD_eq_getD_getElem?]

/-- Up to the place where the table is being refreshed, it holds the next words of the stream. -/
theorem refreshed_upto (hx : Recurs x) {a : Array UInt32} (ha : a.size = size) {base : ℕ}
    (hwords : ∀ j < size, word a j = x (base + j)) {i : ℕ} (hi : i ≤ size) :
    let b := (List.range i).foldl (fun a i ↦ a.setIfInBounds i (twisted a i)) a
    b.size = size ∧ ∀ j < size, word b j = x (if j < i then base + size + j else base + j) := by
  induction i with
  | zero => exact ⟨ha, fun j hj ↦ by simpa using hwords j hj⟩
  | succ i ih =>
    obtain ⟨hsize, hb⟩ := ih (by omega)
    rw [List.range_succ, List.foldl_append, List.foldl_cons, List.foldl_nil]
    set b := (List.range i).foldl (fun a i ↦ a.setIfInBounds i (twisted a i)) a
    have h624 : size = 624 := rfl
    have hahead {k : ℕ} (hk : k < size) (h0 : 0 < k) :
        word b ((i + k) % size) = x (base + i + k) := by
      rw [hb _ (Nat.mod_lt _ (by omega))]
      congr 1
      simp only [h624] at hi hk ⊢
      split <;> omega
    have hnext : word b ((i + 1) % size) = x (base + i + 1) := hahead (by decide) (by decide)
    have hfar : word b ((i + 397) % size) = x (base + i + 397) := hahead (by decide) (by decide)
    have htwisted : twisted b i = x (base + size + i) := by
      have hrec := hx (base + i)
      rw [← hnext, ← hfar] at hrec
      have hhere : word b i = x (base + i) := by rw [hb i (by omega), if_neg (Nat.lt_irrefl i)]
      rw [← hhere] at hrec
      rw [Nat.add_right_comm, hrec]
      rfl
    refine ⟨by rw [Array.size_setIfInBounds, hsize], fun j hj ↦ ?_⟩
    rw [word_setIfInBounds b (by omega)]
    split
    · next hij => rw [htwisted, ← hij, if_pos (Nat.lt_succ_self i)]
    · next hij =>
      rw [hb j hj]
      congr 1
      split <;> split <;> omega

theorem refreshed_spec (hx : Recurs x) {a : Array UInt32} (ha : a.size = size) {base : ℕ}
    (hwords : ∀ j < size, word a j = x (base + j)) :
    (refreshed a).size = size ∧ ∀ j < size, word (refreshed a) j = x (base + size + j) := by
  obtain ⟨hsize, hb⟩ := refreshed_upto hx ha hwords (Nat.le_refl size)
  rw [refreshed]
  refine ⟨hsize, fun j hj ↦ ?_⟩
  rw [hb j hj, if_pos hj]

theorem Follows.next (hx : Recurs x) (ht : Follows t x n) :
    t.next.1 = temper (x n) ∧ Follows t.next.2 x (n + 1) := by
  obtain ⟨hsize, base, hwords, rfl⟩ := ht
  rw [Twister.next]
  split
  · next hused =>
    rw [Nat.min_eq_left (Nat.le_of_lt hused)]
    refine ⟨by rw [hwords _ hused], hsize, base, hwords, ?_⟩
    rw [Nat.min_eq_left hused, Nat.add_assoc]
  · next hused =>
    rw [Nat.min_eq_right (Nat.le_of_not_lt hused)]
    obtain ⟨hsize', hnew⟩ := refreshed_spec hx hsize hwords
    have hpos : 0 < Twister.size := by decide
    have hone : min 1 Twister.size = 1 := by decide
    generalize base + Twister.size = base at hnew ⊢
    generalize refreshed t.words = a at hsize' hnew ⊢
    exact ⟨congrArg temper (hnew 0 hpos), hsize', base, hnew, by rw [hone]⟩

theorem lt_of_below {bound r : ℕ} {t t' : Twister} (h : t.below bound = some (r, t')) :
    r < bound := by
  refine Twister.below.partial_correctness bound (fun _ s ↦ s.1 < bound)
    (fun f hf t s hs ↦ ?_) t _ h
  dsimp only at hs
  split at hs
  · next hlt =>
    cases hs
    exact hlt
  · exact hf _ _ hs

theorem bits_of_le {count : ℕ} (hcount : count ≤ 32) (t : Twister) :
    t.bits count = (t.next.1.toNat >>> (32 - count), t.next.2) := by
  rw [bits]
  dsimp only
  rw [dif_neg (by omega)]

theorem bits_of_gt {count : ℕ} (hcount : 32 < count) (t : Twister) :
    t.bits count = (t.next.1.toNat + 2 ^ 32 * (t.next.2.bits (count - 32)).1,
      (t.next.2.bits (count - 32)).2) := by
  rw [bits]
  dsimp only
  rw [dif_pos hcount]
  rfl

def wordsFor (count : ℕ) : ℕ := (count + 31) / 32

theorem shifted_lt_of_highest {count : ℕ} (hpos : 0 < count) (hcount : count ≤ 32) {w : UInt32}
    (hw : highest w = 0) : (temper w).toNat >>> (32 - count) < 2 ^ (count - 1) := by
  have hlow : (temper w).toNat < 2 ^ 31 := by
    have hnat := congrArg UInt32.toNat hw
    rw [highest, UInt32.toNat_shiftRight, Nat.shiftRight_eq_div_pow] at hnat
    change (temper w).toNat / 2 ^ 31 = 0 at hnat
    omega
  rw [Nat.shiftRight_eq_div_pow]
  refine Nat.div_lt_of_lt_mul ?_
  rwa [← Nat.pow_add, show 32 - count + (count - 1) = 31 by omega]

/-- Bits are taken from the next words, and if the highest bit of the last of these is zero, so is
that of the number. -/
theorem Follows.bits (hx : Recurs x) (ht : Follows t x n) {count : ℕ} (hpos : 0 < count) :
    Follows (t.bits count).2 x (n + wordsFor count) ∧
      (highest (x (n + (wordsFor count - 1))) = 0 → (t.bits count).1 < 2 ^ (count - 1)) := by
  induction count using Nat.strong_induction_on generalizing t n with
  | h count ih =>
    obtain ⟨hword, hnext⟩ := ht.next hx
    by_cases hcount : count ≤ 32
    · have hone : wordsFor count = 1 := by
        rw [wordsFor]
        omega
      rw [bits_of_le hcount, hone, hword]
      exact ⟨hnext, shifted_lt_of_highest hpos hcount⟩
    · have hmore : wordsFor count = wordsFor (count - 32) + 1 := by
        rw [wordsFor, wordsFor]
        omega
      have hwords : 0 < wordsFor (count - 32) := by
        rw [wordsFor]
        omega
      obtain ⟨hrest, hlow⟩ := ih (count - 32) (by omega) hnext (by omega)
      rw [bits_of_gt (by omega), hmore]
      refine ⟨by rwa [Nat.add_assoc, Nat.add_comm 1] at hrest, fun hhigh ↦ ?_⟩
      have hsmall :=
        hlow (by rwa [show n + 1 + (wordsFor (count - 32) - 1) = n + (wordsFor (count - 32) + 1 - 1)
        by omega])
      have hfirst := t.next.1.toNat_lt
      calc t.next.1.toNat + 2 ^ 32 * (t.next.2.bits (count - 32)).1
          < 2 ^ 32 * ((t.next.2.bits (count - 32)).1 + 1) := by omega
        _ ≤ 2 ^ 32 * 2 ^ (count - 32 - 1) := Nat.mul_le_mul_left _ hsmall
        _ = 2 ^ (count - 1) := by
          rw [← Nat.pow_add, show 32 + (count - 32 - 1) = count - 1 by omega]

/-- A whole generator always comes to a number below the bound, and stays whole. -/
theorem exists_below {bound : ℕ} (hpos : 0 < bound) (hbound : bound < 2 ^ 64)
    (ht : t.words.size = size) :
    ∃ r t', t.below bound = some (r, t') ∧ r < bound ∧ t'.words.size = size := by
  obtain ⟨x, n, hx, hfollows⟩ := exists_follows ht
  have hlog : bound.log2 < 64 := (Nat.log2_lt (by omega)).2 hbound
  set k := wordsFor (bound.log2 + 1) with hk
  have hwidth : k = 1 ∨ k = 2 := by
    rw [hk, wordsFor]
    omega
  -- Some draw ends with a word whose highest bit is zero.
  obtain ⟨m, hm⟩ : ∃ m, highest (x (n + k * m + (k - 1))) = 0 := by
    obtain ⟨j, hj⟩ := (hx.shift (n + (k - 1))).exists_highest
    rcases hwidth with hk | hk <;> rw [hk] at hj ⊢
    · exact ⟨2 * j, by rwa [show n + 1 * (2 * j) + (1 - 1) = 2 * j + (n + (1 - 1)) by omega]⟩
    · exact ⟨j, by rwa [show n + 2 * j + (2 - 1) = 2 * j + (n + (2 - 1)) by omega]⟩
  -- By the number of draws before that one.
  induction m generalizing t n with
  | zero =>
    obtain ⟨hnext, hlow⟩ := hfollows.bits hx (Nat.succ_pos bound.log2)
    have hlt : (t.bits (bound.log2 + 1)).1 < bound :=
      Nat.lt_of_lt_of_le (hlow hm) (Nat.log2_self_le (by omega))
    refine ⟨_, (t.bits (bound.log2 + 1)).2, ?_, hlt, hnext.size⟩
    rw [below_eq]
    exact if_pos hlt
  | succ m ih =>
    obtain ⟨hnext, -⟩ := hfollows.bits hx (Nat.succ_pos bound.log2)
    rw [below_eq]
    dsimp only
    split
    · next hlt => exact ⟨_, _, rfl, hlt, hnext.size⟩
    · refine ih hnext.size (n + k) hnext ?_
      rwa [Nat.mul_succ, Nat.add_comm (k * m), ← Nat.add_assoc] at hm

theorem size_initial (seed : UInt32) : (initial seed).size = size := by
  have hpush (xs : List ℕ) (f : Array UInt32 → ℕ → UInt32) (a : Array UInt32) :
      (xs.foldl (fun a i ↦ a.push (f a i)) a).size = a.size + xs.length := by
    induction xs generalizing a with
    | nil => rfl
    | cons i xs ih =>
      rw [List.foldl_cons, ih, Array.size_push, List.length_cons, Nat.add_assoc, Nat.add_comm 1]
  rw [initial, hpush, List.length_range]
  rfl

theorem size_put (s : Sweep) (w : UInt32) (key : ℕ) : (s.put w key).words.size = s.words.size := by
  unfold Sweep.put
  dsimp only
  split
  · rw [Array.size_setIfInBounds]
  · rw [Array.size_setIfInBounds, Array.size_setIfInBounds]

theorem size_repeat {f : Sweep → Sweep} (hf : ∀ s, (f s).words.size = s.words.size) (n : ℕ)
    (s : Sweep) :
    (Nat.repeat f n s).words.size = s.words.size := by
  induction n with
  | zero => rfl
  | succ n ih => rw [Nat.repeat, hf, ih]

theorem size_ofKeys (keys : Array UInt32) : (ofKeys keys).words.size = size := by
  rw [ofKeys]
  dsimp only
  rw [Array.size_setIfInBounds, size_repeat (f := Sweep.settle) fun s ↦ size_put s _ _,
    size_repeat (f := Sweep.stir keys) fun s ↦ size_put s _ _, size_initial]

theorem exists_keys_of_ofValue {seed : Value} (h : ofValue seed = .ok t) :
    ∃ keys, t = ofKeys keys := by
  unfold ofValue at h
  split at h
  · exact ⟨_, (Except.ok.inj h).symm⟩
  · exact ⟨_, (Except.ok.inj h).symm⟩
  · exact ⟨_, (Except.ok.inj h).symm⟩
  · split at h
    · exact ⟨_, (Except.ok.inj h).symm⟩
    · exact ⟨_, (Except.ok.inj h).symm⟩
    · cases h

/-- Whatever seeds a generator, it is whole. -/
theorem size_of_ofValue {seed : Value} (h : ofValue seed = .ok t) : t.words.size = size := by
  obtain ⟨keys, rfl⟩ := exists_keys_of_ofValue h
  exact size_ofKeys keys

end Fable.Twister

namespace Fable

def Value.sequence? : Value → Option (List Value)
  | list xs _ => some xs
  | v => v.string?.map fun s ↦ s.toList.map fun c ↦ text c.toString

namespace Draw

variable {α : Type} {v w : Value} {xs : List Value} {t t' : Twister}

theorem map_below_eq_ok_iff {bound : ℕ} {f : ℕ → α} {a : α} :
    (f <$> below bound) t = .ok a t' ↔ ∃ r, t.below bound = some (r, t') ∧ a = f r := by
  change EStateM.map f (below bound) t = _ ↔ _
  rw [EStateM.map, below]
  cases t.below bound with
  | none => simp
  | some r => simp [Prod.ext_iff, and_comm, eq_comm]

theorem pickOne_of_sequence? (hv : v.sequence? = some xs) (hxs : xs ≠ []) :
    pickOne v = (fun i ↦ xs.getD i .none) <$> below xs.length := by
  cases v with
  | list xs n =>
    cases hv
    have htruthy : (Value.list xs n).truthy := by simpa [Value.truthy] using hxs
    unfold pickOne
    rw [htruthy]
    rfl
  | text s =>
    cases hv
    have htruthy : (Value.text s).truthy := by simpa [Value.truthy] using hxs
    unfold pickOne
    rw [htruthy]
    rfl
  | message m =>
    cases hv
    rfl
  | _ => cases hv

theorem mem_of_pickOne (hv : v.sequence? = some xs) (hxs : xs ≠ []) (h : pickOne v t = .ok w t') :
    w ∈ xs := by
  rw [pickOne_of_sequence? hv hxs, map_below_eq_ok_iff] at h
  obtain ⟨i, hbelow, rfl⟩ := h
  have hi := Twister.lt_of_below hbelow
  rw [List.getD_eq_getElem?_getD, List.getElem?_eq_getElem hi]
  exact List.getElem_mem hi

/-- A whole generator always picks a member, and stays whole. -/
theorem exists_pickOne (hv : v.sequence? = some xs) (hxs : xs ≠ []) (hlength : xs.length < 2 ^ 64)
    (ht : t.words.size = Twister.size) :
    ∃ w t', pickOne v t = .ok w t' ∧ w ∈ xs ∧ t'.words.size = Twister.size := by
  obtain ⟨i, t', hbelow, -, ht'⟩ := Twister.exists_below (List.length_pos_iff.2 hxs) hlength ht
  have hpick : pickOne v t = .ok (xs.getD i .none) t' := by
    rw [pickOne_of_sequence? hv hxs, map_below_eq_ok_iff]
    exact ⟨i, hbelow, rfl⟩
  exact ⟨_, t', hpick, mem_of_pickOne hv hxs hpick, ht'⟩

end Draw

end Fable
